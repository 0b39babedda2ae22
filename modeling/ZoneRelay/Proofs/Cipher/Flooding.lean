import Mathlib.Data.List.GetD
import ZoneRelay.Proofs.Cipher.Image

/-!
# Signed hashes are flooded ones

The bytes of a hash are read into round keys with their signs, four to a word. A byte from `0x80`
on brings ones with it, and they end up over the bytes that were read before it: those are
**flooded**, whatever they were. Nothing else comes of the signs. So there are two ways to the same
schedule.

| the hash | how its bytes are read | theorem |
|---|---|---|
| as it is | with their signs | – |
| with `0xFF` for every flooded byte | without | `ZoneRelay.Cipher.keyed_flooded` |

For one group of four bytes this is `ZoneRelay.Cipher.foldSigned_eq_foldPlain`. The ones that a
byte brings shift out of the word with the bytes in front of them, so they never reach another
group, and the hash has whole groups: reading it over and over meets the same four groups in turn
(`ZoneRelay.Cipher.keyGroup_eq`). Everything that follows in the making of a schedule starts from
the round keys and knows nothing more of the hash.

A flooded byte does not count any more, not even for flooding others: the last byte from `0x80` on
floods all that are in front of it, flooded or not. Hence hashes that differ in flooded bytes only
are the same when flooded (`ZoneRelay.Cipher.flooded_eq_of_differOnlyFlooded`), and session keys
with such hashes have the same cipher (`ZoneRelay.Cipher.Schedule.expand_signed`).
-/

namespace ZoneRelay

namespace Cipher

/-! ### One word -/

/-- Reading a byte from `0x80` on leaves ones of all that was read before it. -/
theorem or_signExtend (word : UInt32) (b : UInt8) :
    (word <<< 8) ||| signExtend b =
      ((if 0x80 ≤ b then (-1 : UInt32) else word) <<< 8) ||| b.toUInt32 := by
  by_cases hb : b < 0x80
  · rw [signExtend, if_pos hb, if_neg (UInt8.not_le.mpr hb)]
  · have hones : (0xFFFFFF00 : UInt32) = (-1 : UInt32) <<< 8 := by decide
    rw [signExtend, if_neg hb, if_pos (UInt8.not_lt.mp hb), UInt32.or_comm b.toUInt32,
      ← UInt32.or_assoc, hones, ← UInt32.shiftLeft_or, UInt32.or_neg_one]

/-- The bytes of a word, each of them `0xFF` instead if a byte from `0x80` on stands behind it. -/
def floodGroup : Bytes → Bytes
  | [] => []
  | b :: rest => (if rest.any (0x80 ≤ ·) then 0xFF else b) :: floodGroup rest

theorem length_floodGroup (group : Bytes) : (floodGroup group).length = group.length := by
  induction group with
  | nil => rfl
  | cons b rest ih => rw [floodGroup, List.length_cons, List.length_cons, ih]

/-- Reading bytes behind a word with their signs is reading the flooded ones without, behind the
word or, if there is a byte from `0x80` on among them, behind ones. -/
theorem foldl_signExtend (group : Bytes) (word : UInt32) :
    group.foldl (fun (word : UInt32) b => (word <<< 8) ||| signExtend b) word =
      (floodGroup group).foldl (fun (word : UInt32) b => (word <<< 8) ||| b.toUInt32)
        (if group.any (0x80 ≤ ·) then (-1 : UInt32) else word) := by
  induction group generalizing word with
  | nil => rfl
  | cons b rest ih =>
    rw [List.foldl_cons, or_signExtend, ih, floodGroup, List.foldl_cons, List.any_cons]
    by_cases hrest : rest.any (0x80 ≤ ·) = true
    · -- ones with `0xFF` behind them are ones again
      have hones : ((-1 : UInt32) <<< 8) ||| (0xFF : UInt8).toUInt32 = -1 := by decide
      simp only [hrest, Bool.or_true, if_true, hones]
    · simp only [hrest, Bool.or_false, if_false, Bool.false_eq_true, decide_eq_true_eq]

/-- Four bytes fill a word, so nothing is left of what was read before them. -/
theorem foldl_toUInt32_of_length {group : Bytes} (h : group.length = 4) (word : UInt32) :
    group.foldl (fun (word : UInt32) b => (word <<< 8) ||| b.toUInt32) word = foldPlain group := by
  have hgone : ∀ word : UInt32, word <<< 8 <<< 8 <<< 8 <<< 8 = 0 := by
    intro word
    apply UInt32.eq_of_toBitVec_eq
    refine BitVec.eq_of_getLsbD_eq fun i hi => ?_
    simp only [UInt32.toBitVec_shiftLeft]
    simp
  match group, h with
  | [a, b, c, d], _ =>
    simp only [foldPlain, List.foldl_cons, List.foldl_nil, UInt32.shiftLeft_or, hgone]

/-- **Four bytes read with their signs are the flooded ones read without.** -/
theorem foldSigned_eq_foldPlain {group : Bytes} (h : group.length = 4) :
    foldSigned group = foldPlain (floodGroup group) := by
  rw [foldSigned, foldl_signExtend, foldl_toUInt32_of_length (by rw [length_floodGroup, h])]

/-! ### A hash -/

/-- **A byte of a hash is flooded** if a byte from `0x80` on follows it in its group of four. -/
def Flooded (hash : Bytes) (i : Nat) : Prop :=
  ∃ j < hash.length, i < j ∧ j / 4 = i / 4 ∧ 0x80 ≤ Bytes.byteAt hash j

instance (hash : Bytes) (i : Nat) : Decidable (Flooded hash i) :=
  inferInstanceAs (Decidable (∃ j < hash.length, _))

/-- The hash with `0xFF` for every flooded byte; the others stay. -/
def flooded (hash : Bytes) : Bytes :=
  hash.mapIdx fun i b => if Flooded hash i then 0xFF else b

@[simp] theorem length_flooded (hash : Bytes) : (flooded hash).length = hash.length :=
  List.length_mapIdx

theorem getElem_flooded {hash : Bytes} {i : Nat} (h : i < (flooded hash).length)
    (hi : i < hash.length) : (flooded hash)[i] = if Flooded hash i then 0xFF else hash[i] :=
  List.getElem_mapIdx

section Hash

variable {hash other : Bytes}

/-- The round keys take the four groups of a hash in turn. -/
theorem keyGroup_eq (h : hash.length = 16) (i : Nat) :
    keyGroup hash i = (List.range 4).map fun k => Bytes.byteAt hash (4 * (i % 4) + k) := by
  refine List.map_congr_left fun k hk => ?_
  rw [List.mem_range] at hk
  congr 1
  rw [h]
  omega

/-- What floods a byte stands behind it in its group. -/
theorem flooded_iff_any (h : hash.length = 16) {q k : Nat} (hq : q < 4) (hk : k < 4) :
    Flooded hash (4 * q + k) ↔
      (((List.range 4).drop (k + 1)).any fun m => 0x80 ≤ Bytes.byteAt hash (4 * q + m)) = true := by
  have hdrop : (List.range 4).drop (k + 1) = List.range' (k + 1) (3 - k) := by
    rw [List.range_eq_range', List.drop_range']
    congr 1 <;> omega
  simp only [hdrop, List.any_eq_true, decide_eq_true_eq, List.mem_range'_1]
  constructor
  · rintro ⟨j, -, hlt, hgroup, hhigh⟩
    refine ⟨j - 4 * q, by omega, ?_⟩
    rwa [Nat.add_sub_cancel' (by omega)]
  · rintro ⟨m, hm, hhigh⟩
    exact ⟨4 * q + m, by omega, by omega, by omega, hhigh⟩

/-- **Flooding a hash floods its groups.** -/
theorem keyGroup_flooded (h : hash.length = 16) (i : Nat) :
    keyGroup (flooded hash) i = floodGroup (keyGroup hash i) := by
  have hq : i % 4 < 4 := Nat.mod_lt _ (by decide)
  rw [keyGroup_eq h, keyGroup_eq (by rw [length_flooded, h])]
  generalize i % 4 = q at hq
  have hbytes : (List.range 4).map (fun k => Bytes.byteAt (flooded hash) (4 * q + k)) =
      (List.range 4).map fun k =>
        if (((List.range 4).drop (k + 1)).any fun m => 0x80 ≤ Bytes.byteAt hash (4 * q + m)) = true
        then 0xFF else Bytes.byteAt hash (4 * q + k) := by
    refine List.map_congr_left fun k hk => ?_
    rw [List.mem_range] at hk
    have hi : 4 * q + k < hash.length := by omega
    rw [Bytes.byteAt, List.getD_eq_getElem _ _ (by rwa [length_flooded]), getElem_flooded _ hi,
      Bytes.byteAt, List.getD_eq_getElem _ _ hi]
    simp only [flooded_iff_any h hq hk]
  rw [hbytes]
  rfl

/-- **The round keys of a hash read with signs are those of the flooded hash read without.** -/
theorem keyed_flooded (h : hash.length = 16) :
    Schedule.keyed foldSigned hash = Schedule.keyed foldPlain (flooded hash) := by
  have hgroup : ∀ i, foldSigned (keyGroup hash i) = foldPlain (keyGroup (flooded hash) i) := by
    intro i
    have hlength : (keyGroup hash i).length = 4 := by
      rw [keyGroup, List.length_map, List.length_range]
    rw [keyGroup_flooded h, foldSigned_eq_foldPlain hlength]
  simp only [Schedule.keyed, hgroup]

/-! ### Hashes that are flooded alike -/

/-- Without a byte from `0x80` on there is nothing to flood. -/
theorem flooded_eq_self (h : ∀ b ∈ hash, b < 0x80) : flooded hash = hash := by
  have hnot : ∀ i, ¬ Flooded hash i := by
    rintro i ⟨j, hj, -, -, hhigh⟩
    rw [Bytes.byteAt, List.getD_eq_getElem _ _ hj] at hhigh
    exact UInt8.not_le.mpr (h _ (List.getElem_mem hj)) hhigh
  refine List.ext_getElem (length_flooded hash) fun i _ hi => ?_
  rw [getElem_flooded _ hi, if_neg (hnot i)]

/-- **Two hashes differ only in flooded bytes**: where neither is flooded, they agree. -/
def DifferOnlyFlooded (hash other : Bytes) : Prop :=
  ∀ i < hash.length, Bytes.byteAt hash i ≠ Bytes.byteAt other i → Flooded hash i ∨ Flooded other i

instance (hash other : Bytes) : Decidable (DifferOnlyFlooded hash other) :=
  inferInstanceAs (Decidable (∀ i < hash.length, _))

/-- If the bytes behind a byte are flooded in both hashes or in neither, the byte itself is not
flooded in one of them alone. -/
theorem Flooded.of_differOnlyFlooded {i : Nat} (h : Flooded hash i)
    (hlength : hash.length = other.length) (hdiffer : DifferOnlyFlooded hash other)
    (hbehind : ∀ j, i < j → (Flooded hash j ↔ Flooded other j)) : Flooded other i := by
  obtain ⟨j, hj, hlt, hgroup, hhigh⟩ := h
  by_cases hsame : Bytes.byteAt hash j = Bytes.byteAt other j
  · exact ⟨j, hlength ▸ hj, hlt, hgroup, hsame ▸ hhigh⟩
  · -- the byte that floods is flooded itself, and by what it is flooded the first one is too
    have hflooded : Flooded other j := (hdiffer j hj hsame).elim (hbehind j hlt).mp id
    obtain ⟨k, hk, hlt', hgroup', hhigh'⟩ := hflooded
    exact ⟨k, hk, Nat.lt_trans hlt hlt', hgroup'.trans hgroup, hhigh'⟩

theorem DifferOnlyFlooded.symm (h : DifferOnlyFlooded hash other)
    (hlength : hash.length = other.length) : DifferOnlyFlooded other hash :=
  fun i hi hne => (h i (hlength ▸ hi) hne.symm).symm

/-- Hashes that differ only in flooded bytes are flooded at the same places. -/
theorem flooded_iff_of_differOnlyFlooded (hlength : hash.length = other.length)
    (hdiffer : DifferOnlyFlooded hash other) (i : Nat) : Flooded hash i ↔ Flooded other i := by
  -- from the end of the hash to its front
  induction hn : hash.length - i using Nat.strongRecOn generalizing i with
  | ind n ih =>
    have hend : ∀ j, hash.length ≤ j → (Flooded hash j ↔ Flooded other j) := by
      intro j hj
      constructor
      · rintro ⟨k, hk, hlt, -⟩
        omega
      · rintro ⟨k, hk, hlt, -⟩
        omega
    have hbehind : ∀ j, i < j → (Flooded hash j ↔ Flooded other j) := by
      intro j hj
      rcases Nat.lt_or_ge j hash.length with hlt | hge
      · exact ih (hash.length - j) (by omega) j rfl
      · exact hend j hge
    exact ⟨fun h => h.of_differOnlyFlooded hlength hdiffer hbehind,
      fun h => h.of_differOnlyFlooded hlength.symm (hdiffer.symm hlength)
        fun j hj => (hbehind j hj).symm⟩

/-- **Hashes that differ only in flooded bytes are the same when flooded.** -/
theorem flooded_eq_of_differOnlyFlooded (hlength : hash.length = other.length)
    (hdiffer : DifferOnlyFlooded hash other) : flooded hash = flooded other := by
  refine List.ext_getElem (by simpa using hlength) fun i hi hi' => ?_
  rw [length_flooded] at hi hi'
  have hiff := flooded_iff_of_differOnlyFlooded hlength hdiffer i
  rw [getElem_flooded _ hi, getElem_flooded _ hi']
  by_cases hflooded : Flooded hash i
  · rw [if_pos hflooded, if_pos (hiff.mp hflooded)]
  · rw [if_neg hflooded, if_neg (mt hiff.mpr hflooded), ← List.getD_eq_getElem hash 0 hi,
      ← List.getD_eq_getElem other 0 hi']
    refine Classical.byContradiction fun hne => ?_
    exact (hdiffer i hi hne).elim hflooded (mt hiff.mpr hflooded)

end Hash

/-! ### Schedules -/

/-- A session key is stretched to a hash of sixteen bytes. -/
theorem Key.length_scheduleHash (key : Key) : key.scheduleHash.length = 16 := by
  have hkept := (List.takeWhile_sublist (· != 0) (l := Digest.md5 key.toBytes)).length_le
  rw [Digest.length_md5] at hkept
  rw [scheduleHash, List.length_append, Bytes.length_zeros, Digest.length_md5]
  omega

namespace Schedule

/-- **With signs or flooded is the same.**

* The schedule of a hash of sixteen bytes that are read with their signs is the schedule of the
  flooded hash, read without.
* If all bytes are below `0x80`, this is the schedule of the hash itself, read without.
* Hashes that differ only in flooded bytes have the same schedule.
* So the cipher of a session key is made of its flooded hash, and keys whose hashes differ only in
  flooded bytes have the same cipher. -/
theorem expand_signed :
    (∀ hash : Bytes, hash.length = 16 → expand foldSigned hash = expand foldPlain (flooded hash)) ∧
    (∀ hash : Bytes, hash.length = 16 → (∀ b ∈ hash, b < 0x80) →
      expand foldSigned hash = expand foldPlain hash) ∧
    (∀ hash other : Bytes, hash.length = 16 → other.length = 16 → DifferOnlyFlooded hash other →
      expand foldSigned hash = expand foldSigned other) ∧
    (∀ key : Key, key.schedule = expand foldPlain (flooded key.scheduleHash)) ∧
    ∀ key other : Key, DifferOnlyFlooded key.scheduleHash other.scheduleHash →
      key.schedule = other.schedule := by
  -- a schedule knows of its hash what the round keys hold at the start
  have hflooded : ∀ hash : Bytes, hash.length = 16 →
      expand foldSigned hash = expand foldPlain (flooded hash) := by
    intro hash h
    rw [expand, expand, keyed_flooded h]
  have halike : ∀ hash other : Bytes, hash.length = 16 → other.length = 16 →
      DifferOnlyFlooded hash other → expand foldSigned hash = expand foldSigned other := by
    intro hash other h h' hdiffer
    rw [hflooded hash h, hflooded other h',
      flooded_eq_of_differOnlyFlooded (h.trans h'.symm) hdiffer]
  refine ⟨hflooded, ?_, halike, fun key => hflooded _ key.length_scheduleHash,
    fun key other => halike _ _ key.length_scheduleHash other.length_scheduleHash⟩
  intro hash h hlow
  rw [hflooded hash h, flooded_eq_self hlow]

/-- Two hashes with two groups of them flooded, and one without signs. -/
theorem expand_signed_twoGroups :
    let hash : Bytes := [1, 2, 0x80, 4, 5, 6, 7, 8, 0x90, 0xA0, 0xB0, 0xC0, 13, 14, 15, 0x7F]
    let other : Bytes := [0xEE, 3, 0x80, 4, 5, 6, 7, 8, 0, 0, 0, 0xC0, 13, 14, 15, 0x7F]
    let low : Bytes := [1, 2, 3, 4, 5, 6, 7, 8, 9, 10, 11, 12, 13, 14, 15, 0x7F]
    hash.length = 16 ∧ other.length = 16 ∧ low.length = 16 ∧
      (∀ b ∈ low, b < 0x80) ∧ DifferOnlyFlooded hash other ∧
      expand foldSigned hash = expand foldPlain
        [0xFF, 0xFF, 0x80, 4, 5, 6, 7, 8, 0xFF, 0xFF, 0xFF, 0xC0, 13, 14, 15, 0x7F] ∧
      expand foldSigned hash = expand foldSigned other ∧
      expand foldSigned low = expand foldPlain low := by
  obtain ⟨hflooded, hlow, halike, -⟩ := expand_signed
  intro hash other low
  have hbytes : flooded hash =
      [0xFF, 0xFF, 0x80, 4, 5, 6, 7, 8, 0xFF, 0xFF, 0xFF, 0xC0, 13, 14, 15, 0x7F] := by decide
  have hsigned := hflooded hash rfl
  rw [hbytes] at hsigned
  have hdiffer : DifferOnlyFlooded hash other := by decide
  have hbelow : ∀ b ∈ low, b < 0x80 := by simp [low]
  exact ⟨rfl, rfl, rfl, hbelow, hdiffer, hsigned, halike hash other rfl rfl hdiffer,
    hlow low rfl hbelow⟩

-- a block of zeros under a key of zeros, from the published test vectors
example : (expand foldPlain (Bytes.zeros 8)).encrypt ⟨0, 0⟩ = ⟨0x4EF99745, 0x6198DD78⟩ := by
  have hpasses : Image.test foldPlain (Bytes.zeros 8)
      (fun image => image.encryptsTo ⟨0, 0⟩ ⟨0x4EF99745, 0x6198DD78⟩) = true := by decide +kernel
  rw [Image.test_eq] at hpasses
  exact (Image.encryptsTo_iff _).mp hpasses

end Schedule

end Cipher

end ZoneRelay
