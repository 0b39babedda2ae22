import Mathlib.Logic.Function.Basic
import Mathlib.Order.Bounds.Basic
import ZoneRelay.Proofs.Cipher.Inverse

/-!
# What enciphering reaches

The cipher works on three things, and on each of them enciphering and deciphering take each
other back:

| what is enciphered | what is reached | what stays as it is |
|---|---|---|
| a block | both words | – |
| a byte string | its whole blocks | the last bytes, fewer than eight |
| a datagram | the whole blocks behind the header | the header, and the last bytes |

A byte string is a datagram without a header, so one notion serves for both: a function that
**works on the blocks from an offset on** (`ZoneRelay.Cipher.WorksFrom`). Its region starts at the
offset and has as its length the largest multiple of eight that is there
(`ZoneRelay.Cipher.isGreatest_regionLength`). Inside the region every block goes to the block that
the cipher makes of it, which leaves nothing about the result open; outside of it no byte changes.

Nothing depends on how the schedule came about: the statement is about any round keys and any
substitution tables (`ZoneRelay.Cipher.Schedule.ciphers_region`).
-/

namespace ZoneRelay

namespace Cipher

/-! ### Regions -/

/-- **The region is as long as whole blocks allow**: its length is the largest multiple of eight
that is not more than what follows the header, nothing if nothing does. -/
theorem isGreatest_regionLength (length header : Nat) :
    IsGreatest {size | 8 ∣ size ∧ size ≤ length - header} (regionLength length header) := by
  rw [regionLength_eq]
  constructor
  · exact ⟨Nat.dvd_mul_left 8 _, Nat.div_mul_le_self _ 8⟩
  · rintro size ⟨⟨blocks, rfl⟩, hle⟩
    omega

/-- The block whose two words lie at an offset. -/
def blockAt (data : Bytes) (offset : Nat) : Block :=
  ⟨Bytes.u32At data offset, Bytes.u32At data (offset + 4)⟩

/-- A block in the middle of a byte string is found at its place in the middle part. -/
theorem blockAt_append {region : Bytes} {i : Nat} (h : i + 8 ≤ region.length)
    (front rest : Bytes) :
    blockAt (front ++ region ++ rest) (front.length + i) = blockAt region i := by
  have hbyte : ∀ k, i ≤ k → k < i + 8 →
      Bytes.byteAt (front ++ region ++ rest) (front.length + k) = Bytes.byteAt region k :=
    fun k _ hk => by
      rw [List.append_assoc, Bytes.byteAt_append_right, Bytes.byteAt_append_left (by omega)]
  have hword : ∀ k, i ≤ k → k ≤ i + 4 →
      Bytes.u32At (front ++ region ++ rest) (front.length + k) = Bytes.u32At region k :=
    fun k hlow hhigh => by
      simp only [Bytes.u32At, Nat.add_assoc]
      rw [hbyte k (by omega) (by omega), hbyte (k + 1) (by omega) (by omega),
        hbyte (k + 2) (by omega) (by omega), hbyte (k + 3) (by omega) (by omega)]
  rw [blockAt, blockAt, Nat.add_assoc, hword i (by omega) (by omega),
    hword (i + 4) (by omega) (by omega)]

/-- **A function of byte strings that works on the blocks from an offset on**: every whole block
there goes to what `act` makes of it, and the bytes in front of these blocks and behind them stay
as they are. -/
structure WorksFrom (offset : Nat) (act : Block → Block) (f : Bytes → Bytes) : Prop where
  length_eq : ∀ data, (f data).length = data.length
  outside : ∀ data i, i < offset ∨ offset + regionLength data.length offset ≤ i →
    (f data)[i]? = data[i]?
  inside : ∀ data k, 8 * k < regionLength data.length offset →
    blockAt (f data) (offset + 8 * k) = act (blockAt data (offset + 8 * k))

/-! ### Byte strings -/

/-- The first two words of a byte string are its first block. -/
theorem blockAt_ofU32 (block : Block) (rest : Bytes) :
    blockAt (Bytes.ofU32 block.left ++ Bytes.ofU32 block.right ++ rest) 0 = block := by
  have hleft := Bytes.u32_ofU32 block.left
  have hright := Bytes.u32_ofU32 block.right
  simp only [blockAt, Bytes.u32At, Bytes.byteAt, Bytes.ofU32]
  exact congrArg₂ Block.mk hleft hright

/-- Behind the last whole block nothing is done. -/
theorem getElem?_mapBlocks (act : Block → Block) (data : Bytes) :
    ∀ i, data.length / 8 * 8 ≤ i → (mapBlocks act data)[i]? = data[i]? := by
  fun_induction mapBlocks act data with
  | case1 a b c d e g j k rest block ih =>
    intro i hi
    simp only [List.length_cons] at hi
    obtain ⟨i, rfl⟩ : ∃ behind, i = behind + 8 := Nat.exists_eq_add_of_le' (by omega)
    have hrest := ih i (by omega)
    simpa only [Bytes.ofU32, List.cons_append, List.nil_append, List.getElem?_cons_succ] using hrest
  | case2 => exact fun _ _ => rfl

/-- Every whole block goes to what is made of it. -/
theorem blockAt_mapBlocks (act : Block → Block) (data : Bytes) {k : Nat}
    (h : 8 * k + 8 ≤ data.length) :
    blockAt (mapBlocks act data) (8 * k) = act (blockAt data (8 * k)) := by
  -- one block less in front of the byte string is one block less to the place
  induction k generalizing data with
  | zero =>
    match data, h with
    | _ :: _ :: _ :: _ :: _ :: _ :: _ :: _ :: rest, _ => exact blockAt_ofU32 _ _
  | succ k ih =>
    match data, h with
    | a :: b :: c :: d :: e :: g :: i :: j :: rest, h =>
      have hrest := ih rest (by simp only [List.length_cons] at h; omega)
      exact hrest

/-- **A cipher of blocks works on byte strings** from their first byte on. -/
theorem worksFrom_mapBlocks (act : Block → Block) : WorksFrom 0 act (mapBlocks act) where
  length_eq := length_mapBlocks act
  outside data i houtside := by
    rw [regionLength_eq] at houtside
    exact getElem?_mapBlocks act data i (by omega)
  inside data k hinside := by
    rw [regionLength_eq] at hinside
    rw [Nat.zero_add]
    exact blockAt_mapBlocks act data (by omega)

/-! ### Datagrams -/

/-- **What works on byte strings works on datagrams** behind their header. -/
theorem WorksFrom.onRegion {act : Block → Block} {f : Bytes → Bytes} (hf : WorksFrom 0 act f)
    (header : Nat) : WorksFrom header act (onRegion f header) where
  length_eq := length_onRegion hf.length_eq header
  outside datagram i houtside := by
    rcases Nat.lt_or_ge datagram.length header with hshort | hlong
    · have hnil : f [] = [] := List.eq_nil_of_length_eq_zero (hf.length_eq [])
      rw [onRegion_of_lt hnil hshort]
    · obtain ⟨front, region, rest, rfl, rfl, hregion⟩ := exists_region hlong
      rw [← hregion] at houtside
      rw [onRegion_append f rfl hregion]
      rcases houtside with hfront | hrest
      · rw [List.append_assoc, List.append_assoc, List.getElem?_append_left hfront,
          List.getElem?_append_left hfront]
      · have hlength := hf.length_eq region
        rw [List.getElem?_append_right (by rw [List.length_append, hlength]; exact hrest),
          List.getElem?_append_right (by rw [List.length_append]; exact hrest),
          List.length_append, List.length_append, hlength]
  inside datagram k hinside := by
    have hlong : header ≤ datagram.length := by
      rw [regionLength_eq] at hinside
      omega
    obtain ⟨front, region, rest, rfl, rfl, hregion⟩ := exists_region hlong
    rw [← hregion] at hinside
    -- the region is made of whole blocks, so all of it is worked on
    have hwhole : region.length % 8 = 0 := by
      rw [hregion, regionLength_eq]
      exact Nat.mul_mod_left _ 8
    have hblock := hf.inside region k (by rw [regionLength_eq]; omega)
    rw [Nat.zero_add] at hblock
    rw [onRegion_append f rfl hregion,
      blockAt_append (by rw [hf.length_eq]; omega) front rest,
      blockAt_append (by omega) front rest, hblock]

namespace Schedule

/-- **The cipher is a bijection on its region**, whatever the round keys and the substitution
tables are.

* Deciphering and enciphering take each other back on every block, on every byte string and on
  every datagram, behind a header of any size.
* Each of them keeps the length, does to every block of the region what it does to a block, and
  changes no byte outside the region.
* The region starts behind the header; of what is there it takes as many bytes as make up whole
  blocks. -/
theorem ciphers_region (schedule : Schedule) :
    (Function.LeftInverse schedule.decrypt schedule.encrypt ∧
      Function.LeftInverse schedule.encrypt schedule.decrypt) ∧
    (Function.LeftInverse schedule.decryptBlocks schedule.encryptBlocks ∧
      Function.LeftInverse schedule.encryptBlocks schedule.decryptBlocks ∧
      WorksFrom 0 schedule.encrypt schedule.encryptBlocks ∧
      WorksFrom 0 schedule.decrypt schedule.decryptBlocks) ∧
    (∀ header, Function.LeftInverse (schedule.decryptPacket header) (schedule.encryptPacket header) ∧
      Function.LeftInverse (schedule.encryptPacket header) (schedule.decryptPacket header) ∧
      WorksFrom header schedule.encrypt (schedule.encryptPacket header) ∧
      WorksFrom header schedule.decrypt (schedule.decryptPacket header)) ∧
    ∀ length header,
      IsGreatest {size | 8 ∣ size ∧ size ≤ length - header} (regionLength length header) := by
  have hencrypt := worksFrom_mapBlocks schedule.encrypt
  have hdecrypt := worksFrom_mapBlocks schedule.decrypt
  refine ⟨⟨schedule.decrypt_encrypt, schedule.encrypt_decrypt⟩, ⟨?_, ?_, hencrypt, hdecrypt⟩,
    fun header => ⟨?_, ?_, hencrypt.onRegion header, hdecrypt.onRegion header⟩,
    isGreatest_regionLength⟩
  · exact mapBlocks_mapBlocks schedule.decrypt_encrypt
  · exact mapBlocks_mapBlocks schedule.encrypt_decrypt
  · exact schedule.decryptPacket_encryptPacket header
  · exact schedule.encryptPacket_decryptPacket header

end Schedule

end Cipher

end ZoneRelay
