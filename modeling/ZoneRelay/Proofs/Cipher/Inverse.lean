import Mathlib.Data.List.Induction
import ZoneRelay.Cipher.Packet

/-!
# Deciphering undoes enciphering

The block cipher is one function of a list of keys, the **pass**
(`ZoneRelay.Cipher.Schedule.pass`): rounds with all keys but the last two, and the two halves
swapped and mixed with those. Enciphering passes the keys in order, deciphering in reverse.
So one statement covers both directions: passing the reversed keys undoes passing the keys
(`ZoneRelay.Cipher.Schedule.pass_reverse_pass`), whatever the keys and the substitution
tables are.

The reason is `ZoneRelay.Cipher.Schedule.round_mixed`: a round behind a mixed and swapped
block takes back the last round before it, and leaves the block mixed and swapped as if that
round had been left out. Byte strings follow block by block, and datagrams because the
ciphered region of a datagram depends on nothing but its length.
-/

namespace ZoneRelay

namespace Cipher

theorem xor_xor_self (a b : UInt32) : a ^^^ b ^^^ b = a := by
  rw [UInt32.xor_assoc, UInt32.xor_self, UInt32.xor_zero]

/-! ### Blocks -/

/-- The halves swapped, and each mixed with a key. -/
def mixed (key₀ key₁ : UInt32) (block : Block) : Block :=
  ⟨block.right ^^^ key₁, block.left ^^^ key₀⟩

/-- Mixing with the keys swapped takes mixing back. -/
theorem mixed_mixed (key₀ key₁ : UInt32) (block : Block) :
    mixed key₁ key₀ (mixed key₀ key₁ block) = block := by
  simp only [mixed, xor_xor_self]

namespace Schedule

variable (schedule : Schedule)

/-- **A round behind a mixed block takes back the round before it.** -/
theorem round_mixed (key key₀ key₁ : UInt32) (block : Block) :
    schedule.round key₁ (mixed key₀ key₁ (schedule.round key block)) = mixed key key₀ block := by
  have hswap : ∀ a b c : UInt32, a ^^^ b ^^^ c ^^^ b = a ^^^ c := fun a b c => by
    rw [UInt32.xor_assoc a b c, UInt32.xor_comm b c, ← UInt32.xor_assoc, xor_xor_self]
  simp only [round, mixed, xor_xor_self, hswap]

/-- The rounds with all keys but the last two, and the block mixed with those. -/
def pass (keys : List UInt32) (block : Block) : Block :=
  match keys.reverse with
  | key₁ :: key₀ :: front =>
    mixed key₀ key₁ (front.reverse.foldl (fun block key => schedule.round key block) block)
  | _ => block

theorem pass_append (front : List UInt32) (key₀ key₁ : UInt32) (block : Block) :
    schedule.pass (front ++ [key₀, key₁]) block =
      mixed key₀ key₁ (front.foldl (fun block key => schedule.round key block) block) := by
  simp [pass]

/-- One more round takes back the last key of a pass. -/
theorem round_pass_append {keys : List UInt32} (h : 2 ≤ keys.length) (key : UInt32)
    (block : Block) :
    schedule.round key (schedule.pass (keys ++ [key]) block) = schedule.pass keys block := by
  obtain ⟨front, key₀, key₁, rfl⟩ : ∃ front key₀ key₁, keys = front ++ [key₀, key₁] := by
    refine ⟨keys.take (keys.length - 2), keys[keys.length - 2], keys[keys.length - 1], ?_⟩
    refine (List.take_append_drop (keys.length - 2) keys).symm.trans (congrArg _ ?_)
    rw [List.drop_eq_getElem_cons (by omega), List.drop_eq_getElem_cons (by omega),
      List.drop_eq_nil_of_le (by omega)]
    simp only [show keys.length - 2 + 1 = keys.length - 1 by omega]
  -- the new key pushes `key₀` out of the last two, into one more round
  have hpass : schedule.pass (front ++ [key₀, key₁] ++ [key]) block =
      mixed key₁ key (schedule.round key₀
        (front.foldl (fun block key => schedule.round key block) block)) := by
    rw [show front ++ [key₀, key₁] ++ [key] = (front ++ [key₀]) ++ [key₁, key] by simp,
      pass_append, List.foldl_append]
    rfl
  rw [hpass, round_mixed, pass_append]

/-- **Rounds in reverse take a pass back**, key by key from the last, down to the first two. -/
theorem foldl_reverse_pass (key₀ key₁ : UInt32) (rest : List UInt32) (block : Block) :
    rest.reverse.foldl (fun block key => schedule.round key block)
      (schedule.pass (key₀ :: key₁ :: rest) block) = mixed key₀ key₁ block := by
  induction rest using List.reverseRecOn with
  | nil => rfl
  | append_singleton rest key ih =>
    rw [List.reverse_concat, List.foldl_cons, ← List.cons_append, ← List.cons_append,
      schedule.round_pass_append (by simp), ih]

/-- **Passing the keys in reverse undoes passing them.** -/
theorem pass_reverse_pass {keys : List UInt32} (h : 2 ≤ keys.length) (block : Block) :
    schedule.pass keys.reverse (schedule.pass keys block) = block := by
  obtain ⟨key₀, key₁, rest, rfl⟩ : ∃ key₀ key₁ rest, keys = key₀ :: key₁ :: rest := by
    match keys, h with
    | key₀ :: key₁ :: rest, _ => exact ⟨key₀, key₁, rest, rfl⟩
  rw [show (key₀ :: key₁ :: rest).reverse = rest.reverse ++ [key₁, key₀] by simp, pass_append,
    foldl_reverse_pass, mixed_mixed]

theorem encrypt_eq_pass (block : Block) :
    schedule.encrypt block = schedule.pass schedule.keys.toList block := by
  have hkeys : schedule.keys.toList =
      schedule.keys.toList.take 16 ++ [schedule.keys[16], schedule.keys[17]] := by
    refine (List.take_append_drop 16 _).symm.trans (congrArg _ ?_)
    rw [List.drop_eq_getElem_cons (by simp), List.drop_eq_getElem_cons (by simp),
      List.drop_eq_nil_of_le (by simp)]
    rfl
  rw [hkeys, pass_append]
  rfl

theorem decrypt_eq_pass (block : Block) :
    schedule.decrypt block = schedule.pass schedule.keys.toList.reverse block := by
  have hkeys : schedule.keys.toList.reverse =
      schedule.keys.toList.reverse.take 16 ++ [schedule.keys[1], schedule.keys[0]] := by
    refine (List.take_append_drop 16 _).symm.trans (congrArg _ ?_)
    rw [List.drop_eq_getElem_cons (by simp), List.drop_eq_getElem_cons (by simp),
      List.drop_eq_nil_of_le (by simp), List.getElem_reverse, List.getElem_reverse]
    simp
  rw [hkeys, pass_append]
  rfl

/-- **Deciphering a block undoes enciphering it.** -/
theorem decrypt_encrypt (block : Block) : schedule.decrypt (schedule.encrypt block) = block := by
  rw [encrypt_eq_pass, decrypt_eq_pass]
  exact schedule.pass_reverse_pass (by simp) block

/-- **Enciphering a block undoes deciphering it.** -/
theorem encrypt_decrypt (block : Block) : schedule.encrypt (schedule.decrypt block) = block := by
  rw [encrypt_eq_pass, decrypt_eq_pass]
  have hlen : 2 ≤ schedule.keys.toList.reverse.length := by simp
  have h := schedule.pass_reverse_pass hlen block
  rwa [List.reverse_reverse] at h

end Schedule

/-! ### Byte strings -/

@[simp] theorem length_mapBlocks (f : Block → Block) (data : Bytes) :
    (mapBlocks f data).length = data.length := by
  fun_induction mapBlocks f data with
  | case1 a b c d e g h i rest block ih =>
    simp only [List.length_append, Bytes.length_ofU32, ih, List.length_cons]
    omega
  | case2 => rfl

/-- Blocks that are taken back one by one are taken back together. -/
theorem mapBlocks_mapBlocks {f g : Block → Block} (h : ∀ block, g (f block) = block)
    (data : Bytes) : mapBlocks g (mapBlocks f data) = data := by
  fun_induction mapBlocks f data with
  | case1 a b c d e i j k rest block ih =>
    have hblock : g block = ⟨Bytes.u32 a b c d, Bytes.u32 e i j k⟩ := h _
    have hwords : (⟨Bytes.u32 block.left.toUInt8 (block.left >>> 8).toUInt8
        (block.left >>> 16).toUInt8 (block.left >>> 24).toUInt8,
        Bytes.u32 block.right.toUInt8 (block.right >>> 8).toUInt8
        (block.right >>> 16).toUInt8 (block.right >>> 24).toUInt8⟩ : Block) = block := by
      rw [Bytes.u32_ofU32, Bytes.u32_ofU32]
    simp only [Bytes.ofU32, List.cons_append, List.nil_append, mapBlocks, hwords, hblock, ih]
    have hleft := Bytes.ofU32_u32 a b c d
    have hright := Bytes.ofU32_u32 e i j k
    simp only [Bytes.ofU32] at hleft hright
    simp only [List.cons.injEq, and_true] at hleft hright
    simp only [hleft, hright]
  | case2 data hshort =>
    rw [mapBlocks]
    exact hshort

/-! ### Datagrams -/

theorem length_onRegion {f : Bytes → Bytes} (hf : ∀ data, (f data).length = data.length)
    (header : Nat) (datagram : Bytes) : (onRegion f header datagram).length = datagram.length := by
  simp only [onRegion, regionLength_eq, List.length_append, hf, List.length_take, List.length_drop]
  omega

/-- The header of a datagram stays in the clear. -/
theorem take_onRegion (f : Bytes → Bytes) {header : Nat} {datagram : Bytes}
    (h : header ≤ datagram.length) : (onRegion f header datagram).take header =
      datagram.take header := by
  rw [onRegion, List.append_assoc, List.take_append_of_le_length (by rw [List.length_take]; omega),
    List.take_take, Nat.min_self]

/-- A datagram long enough for its header is the header, the region and a rest. -/
theorem exists_region {header : Nat} {datagram : Bytes} (h : header ≤ datagram.length) :
    ∃ front region rest, datagram = front ++ region ++ rest ∧ front.length = header ∧
      region.length = regionLength (front ++ region ++ rest).length header := by
  refine ⟨datagram.take header,
    (datagram.drop header).take (regionLength datagram.length header),
    (datagram.drop header).drop (regionLength datagram.length header), ?_, ?_, ?_⟩
  · rw [List.append_assoc, List.take_append_drop, List.take_append_drop]
  · rw [List.length_take, Nat.min_eq_left h]
  · rw [List.append_assoc, List.take_append_drop, List.take_append_drop, List.length_take,
      List.length_drop, regionLength_eq]
    omega

/-- A region in the middle of a datagram long enough for its header. -/
theorem onRegion_append (f : Bytes → Bytes) {header : Nat} {front region rest : Bytes}
    (hfront : front.length = header)
    (hregion : region.length = regionLength (front ++ region ++ rest).length header) :
    onRegion f header (front ++ region ++ rest) = front ++ f region ++ rest := by
  subst hfront
  rw [onRegion]
  simp only [← hregion]
  rw [← List.length_append, List.drop_left, List.append_assoc front, List.take_left,
    List.drop_left, List.take_left]

/-- A datagram that is shorter than a header has no region. -/
theorem onRegion_of_lt {f : Bytes → Bytes} (hf : f [] = []) {header : Nat} {datagram : Bytes}
    (h : datagram.length < header) : onRegion f header datagram = datagram := by
  have hzero : regionLength datagram.length header = 0 := by
    rw [regionLength_eq, Nat.sub_eq_zero_of_le (by omega)]
  rw [onRegion, hzero, List.take_zero, hf, List.take_of_length_le (by omega),
    List.drop_eq_nil_of_le (by omega), List.append_nil, List.append_nil]

/-- What takes every region back takes the datagram back. -/
theorem onRegion_onRegion {f g : Bytes → Bytes} (hf : ∀ data, (f data).length = data.length)
    (hgf : ∀ data, g (f data) = data) (header : Nat) (datagram : Bytes) :
    onRegion g header (onRegion f header datagram) = datagram := by
  have hnil : f [] = [] := List.eq_nil_of_length_eq_zero (hf [])
  rcases Nat.lt_or_ge datagram.length header with hshort | hlong
  · -- a datagram without a region stays as it is, both ways
    rw [onRegion_of_lt hnil hshort, onRegion_of_lt (by have := hgf []; rwa [hnil] at this) hshort]
  · obtain ⟨front, region, rest, rfl, hfront, hregion⟩ := exists_region hlong
    -- the region of the result is as long, so it is the region that is taken back
    have hlen : (front ++ f region ++ rest).length = (front ++ region ++ rest).length := by
      simp only [List.length_append, hf]
    rw [onRegion_append f hfront hregion, onRegion_append g hfront (by rw [hlen, hf, hregion]), hgf]

namespace Schedule

variable (schedule : Schedule)

@[simp] theorem length_encryptPacket (header : Nat) (datagram : Bytes) :
    (schedule.encryptPacket header datagram).length = datagram.length :=
  length_onRegion (length_mapBlocks _) header datagram

@[simp] theorem length_decryptPacket (header : Nat) (datagram : Bytes) :
    (schedule.decryptPacket header datagram).length = datagram.length :=
  length_onRegion (length_mapBlocks _) header datagram

/-- **Deciphering a datagram undoes enciphering it.** -/
theorem decryptPacket_encryptPacket (header : Nat) (datagram : Bytes) :
    schedule.decryptPacket header (schedule.encryptPacket header datagram) = datagram :=
  onRegion_onRegion (length_mapBlocks _) (mapBlocks_mapBlocks schedule.decrypt_encrypt) header
    datagram

/-- **Enciphering a datagram undoes deciphering it.** -/
theorem encryptPacket_decryptPacket (header : Nat) (datagram : Bytes) :
    schedule.encryptPacket header (schedule.decryptPacket header datagram) = datagram :=
  onRegion_onRegion (length_mapBlocks _) (mapBlocks_mapBlocks schedule.encrypt_decrypt) header
    datagram

end Schedule

end Cipher

end ZoneRelay
