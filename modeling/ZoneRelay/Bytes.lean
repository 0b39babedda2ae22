/-!
# Byte strings

Everything the relay reads or writes is a finite sequence of bytes. A byte string is
a `List UInt8`; this file adds the one convention the wire formats share, that
**numbers are little-endian**, and the rounding of a length to whole 32-bit units.

Reading is by offset (`ZoneRelay.Bytes.u16At`, `ZoneRelay.Bytes.u32At`); a byte past
the end reads as zero, so a reader that cares about truncation checks the length
first. Writing is by value (`ZoneRelay.Bytes.ofU16`, …) and
`ZoneRelay.Bytes.u32_ofU32` is the round trip the two directions are used with.
-/

namespace ZoneRelay

/-- A byte string. -/
abbrev Bytes := List UInt8

namespace Bytes

/-! ### Little-endian words -/

/-- The two bytes of a 16-bit word, low byte first. -/
def ofU16 (w : UInt16) : Bytes := [w.toUInt8, (w >>> 8).toUInt8]

/-- The four bytes of a 32-bit word, low byte first. -/
def ofU32 (w : UInt32) : Bytes :=
  [w.toUInt8, (w >>> 8).toUInt8, (w >>> 16).toUInt8, (w >>> 24).toUInt8]

/-- The eight bytes of a 64-bit word, low byte first. -/
def ofU64 (w : UInt64) : Bytes := ofU32 w.toUInt32 ++ ofU32 (w >>> 32).toUInt32

/-- The 16-bit word with the given bytes, low byte first. -/
def u16 (a b : UInt8) : UInt16 := a.toUInt16 ||| (b.toUInt16 <<< 8)

/-- The 32-bit word with the given bytes, low byte first. -/
def u32 (a b c d : UInt8) : UInt32 :=
  a.toUInt32 ||| (b.toUInt32 <<< 8) ||| (c.toUInt32 <<< 16) ||| (d.toUInt32 <<< 24)

/-- The byte at an offset, zero past the end. -/
def byteAt (data : Bytes) (i : Nat) : UInt8 := data.getD i 0

/-- The 16-bit word at an offset. -/
def u16At (data : Bytes) (i : Nat) : UInt16 :=
  u16 (byteAt data i) (byteAt data (i + 1))

/-- The 32-bit word at an offset. -/
def u32At (data : Bytes) (i : Nat) : UInt32 :=
  u32 (byteAt data i) (byteAt data (i + 1)) (byteAt data (i + 2)) (byteAt data (i + 3))

/-- A byte of what comes first. -/
theorem byteAt_append_left {front : Bytes} {i : Nat} (h : i < front.length) (rest : Bytes) :
    byteAt (front ++ rest) i = byteAt front i := by
  rw [byteAt, byteAt, List.getD_eq_getElem?_getD, List.getD_eq_getElem?_getD,
    List.getElem?_append_left h]

/-- A byte of what comes behind. -/
theorem byteAt_append_right (front rest : Bytes) (i : Nat) :
    byteAt (front ++ rest) (front.length + i) = byteAt rest i := by
  rw [byteAt, byteAt, List.getD_eq_getElem?_getD, List.getD_eq_getElem?_getD,
    List.getElem?_append_right (Nat.le_add_right _ _), Nat.add_sub_cancel_left]

/-- A 16-bit word is recovered from its bytes. -/
theorem u16_ofU16 (w : UInt16) : u16 w.toUInt8 (w >>> 8).toUInt8 = w := by
  apply UInt16.eq_of_toBitVec_eq
  simp only [u16, UInt16.toBitVec_or, UInt16.toBitVec_shiftLeft, UInt8.toBitVec_toUInt16,
    UInt16.toBitVec_toUInt8, UInt16.toBitVec_shiftRight]
  refine BitVec.eq_of_getLsbD_eq fun i hi => ?_
  by_cases h8 : i < 8
  · simp [h8, hi]
  · have e8 : 8 + (i - 8) = i := by omega
    have b8 : i - 8 < 8 := by omega
    simp [h8, hi, e8, b8]

/-- A 32-bit word is recovered from its bytes. -/
theorem u32_ofU32 (w : UInt32) :
    u32 w.toUInt8 (w >>> 8).toUInt8 (w >>> 16).toUInt8 (w >>> 24).toUInt8 = w := by
  apply UInt32.eq_of_toBitVec_eq
  simp only [u32, UInt32.toBitVec_or, UInt32.toBitVec_shiftLeft, UInt8.toBitVec_toUInt32,
    UInt32.toBitVec_toUInt8, UInt32.toBitVec_shiftRight]
  refine BitVec.eq_of_getLsbD_eq fun i hi => ?_
  have e8 : 8 ≤ i → 8 + (i - 8) = i := by omega
  have e16 : 16 ≤ i → 16 + (i - 16) = i := by omega
  have e24 : 24 ≤ i → 24 + (i - 24) = i := by omega
  by_cases h8 : i < 8
  · have h16 : i < 16 := by omega
    have h24 : i < 24 := by omega
    simp [h8, h16, h24, hi]
  · by_cases h16 : i < 16
    · have h24 : i < 24 := by omega
      have b8 : i - 8 < 8 := by omega
      simp [h8, h16, h24, hi, e8 (by omega), b8]
    · by_cases h24 : i < 24
      · have b8 : ¬ i - 8 < 8 := by omega
        have b16 : i - 16 < 8 := by omega
        simp [h8, h16, h24, hi, e16 (by omega), b8, b16]
      · have b8 : ¬ i - 8 < 8 := by omega
        have b16 : ¬ i - 16 < 8 := by omega
        have b24 : i - 24 < 8 := by omega
        simp [h8, h16, h24, hi, e24 (by omega), b8, b16, b24]

/-- Two bytes are equal when their eight bits are. -/
theorem byte_ext {a b : UInt8}
    (h : ∀ i, i < 8 → a.toBitVec.getLsbD i = b.toBitVec.getLsbD i) : a = b :=
  UInt8.eq_of_toBitVec_eq (BitVec.eq_of_getLsbD_eq h)

/-- Two bytes are recovered from the 16-bit word they make. -/
theorem ofU16_u16 (a b : UInt8) : ofU16 (u16 a b) = [a, b] := by
  simp only [ofU16, List.cons.injEq, and_true]
  refine ⟨byte_ext fun i hi => ?_, byte_ext fun i hi => ?_⟩
  all_goals
    simp only [u16, UInt16.toBitVec_or, UInt16.toBitVec_shiftLeft, UInt8.toBitVec_toUInt16,
      UInt16.toBitVec_toUInt8, UInt16.toBitVec_shiftRight]
  · simp [hi]
  · have : 8 + i < 16 := by omega
    simp [hi, this]

/-- Four bytes are recovered from the 32-bit word they make. -/
theorem ofU32_u32 (a b c d : UInt8) : ofU32 (u32 a b c d) = [a, b, c, d] := by
  simp only [ofU32, List.cons.injEq, and_true]
  refine ⟨byte_ext fun i hi => ?_, byte_ext fun i hi => ?_, byte_ext fun i hi => ?_,
    byte_ext fun i hi => ?_⟩
  all_goals
    simp only [u32, UInt32.toBitVec_or, UInt32.toBitVec_shiftLeft, UInt8.toBitVec_toUInt32,
      UInt32.toBitVec_toUInt8, UInt32.toBitVec_shiftRight]
  · simp [hi]
  · have h16 : 8 + i < 16 := by omega
    have h24 : 8 + i < 24 := by omega
    have h32 : 8 + i < 32 := by omega
    simp [hi, h16, h24, h32]
  · have e0 := a.toBitVec.getLsbD_of_ge (16 + i) (by omega)
    have e1 := b.toBitVec.getLsbD_of_ge (16 + i - 8) (by omega)
    have h8 : ¬ 16 + i < 8 := by omega
    have h24 : 16 + i < 24 := by omega
    have h32 : 16 + i < 32 := by omega
    simp [hi, h8, h24, h32, e0, e1]
  · have e0 := a.toBitVec.getLsbD_of_ge (24 + i) (by omega)
    have e1 := b.toBitVec.getLsbD_of_ge (24 + i - 8) (by omega)
    have e2 := c.toBitVec.getLsbD_of_ge (24 + i - 16) (by omega)
    have h8 : ¬ 24 + i < 8 := by omega
    have h16 : ¬ 24 + i < 16 := by omega
    have h32 : 24 + i < 32 := by omega
    simp [hi, h8, h16, h32, e0, e1, e2]

@[simp] theorem length_ofU16 (w : UInt16) : (ofU16 w).length = 2 := rfl

@[simp] theorem length_ofU32 (w : UInt32) : (ofU32 w).length = 4 := rfl

@[simp] theorem length_ofU64 (w : UInt64) : (ofU64 w).length = 8 := rfl

/-! ### Sequences of words -/

/-- The 32-bit words of a byte string; a rest of fewer than four bytes is left out. -/
def words : Bytes → List UInt32
  | a :: b :: c :: d :: rest => u32 a b c d :: words rest
  | _ => []

/-- The bytes of 32-bit words. -/
def ofWords : List UInt32 → Bytes
  | [] => []
  | w :: rest => ofU32 w ++ ofWords rest

/-- Writing words and reading them back. -/
@[simp] theorem words_ofWords (ws : List UInt32) : words (ofWords ws) = ws := by
  induction ws with
  | nil => rfl
  | cons w rest ih => simp [ofWords, ofU32, words, u32_ofU32, ih]

/-- A word is read back at its offset. -/
theorem u32At_ofWords {ws : List UInt32} {i : Nat} (h : i < ws.length) :
    u32At (ofWords ws) (4 * i) = ws[i] := by
  induction ws generalizing i with
  | nil => cases h
  | cons w rest ih =>
    cases i with
    | zero => exact u32_ofU32 w
    | succ i => exact ih (Nat.lt_of_succ_lt_succ h)

@[simp] theorem length_ofWords (ws : List UInt32) : (ofWords ws).length = 4 * ws.length := by
  induction ws with
  | nil => rfl
  | cons w rest ih => simp [ofWords, ih]; omega

/-! ### Lengths and padding -/

/-- A length rounded up to a multiple of four. -/
def roundUp4 (n : Nat) : Nat := (n + 3) / 4 * 4

theorem le_roundUp4 (n : Nat) : n ≤ roundUp4 n := by unfold roundUp4; omega

/-- `n` zero bytes. -/
def zeros (n : Nat) : Bytes := List.replicate n 0

@[simp] theorem length_zeros (n : Nat) : (zeros n).length = n := by simp [zeros]

/-- The sum of the bytes modulo 256. -/
def sum8 (data : Bytes) : UInt8 := data.foldl (· + ·) 0

end Bytes

end ZoneRelay
