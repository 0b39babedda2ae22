import ZoneRelay.Bytes

/-!
# Bit strings

A compressed stream is a string of bits packed into bytes, **the low bit of a byte
first** (`ZoneRelay.Bits.ofBytes`). Bits are written into a buffer one by one, each into its
place in a byte that keeps its other bits (`ZoneRelay.Bits.setBit`), from the front of the
buffer on (`ZoneRelay.Bits.overwrite`).
-/

namespace ZoneRelay

/-- A bit string. -/
abbrev Bits := List Bool

namespace Bits

/-! ### Numbers -/

/-- The number with the given bits, low bit first. -/
def toNat : Bits → Nat
  | [] => 0
  | b :: rest => b.toNat + 2 * toNat rest

/-- The `count` lowest bits of a number, low bit first. -/
def ofNat (count n : Nat) : Bits := (List.range count).map n.testBit

@[simp] theorem length_ofNat (count n : Nat) : (ofNat count n).length = count := by
  simp [ofNat]

theorem toNat_lt (bits : Bits) : toNat bits < 1 <<< bits.length := by
  induction bits with
  | nil => simp [toNat]
  | cons b rest ih =>
    have := Bool.toNat_le b
    rw [toNat, List.length_cons, Nat.shiftLeft_succ]
    omega

theorem testBit_toNat (bits : Bits) (i : Nat) : (toNat bits).testBit i = bits.getD i false := by
  induction bits generalizing i with
  | nil => simp [toNat]
  | cons b rest ih =>
    cases i with
    | zero => cases b <;> simp [toNat, Nat.testBit_zero]
    | succ i =>
      have half : (b.toNat + 2 * toNat rest) / 2 = toNat rest := by
        cases b <;> simp
        omega
      simp [toNat, Nat.testBit_succ, half, ih]

/-- A bit string is recovered from its number and its length. -/
theorem ofNat_toNat (bits : Bits) : ofNat bits.length (toNat bits) = bits := by
  apply List.ext_getElem
  · simp
  · intro i h₁ h₂
    simp [ofNat, testBit_toNat, List.getElem?_eq_getElem h₂]

/-! ### Bits of bytes -/

/-- The eight bits of a byte. -/
def ofByte (b : UInt8) : Bits := ofNat 8 b.toNat

@[simp] theorem length_ofByte (b : UInt8) : (ofByte b).length = 8 := by simp [ofByte]

/-- The eight bits tell which byte it is. -/
theorem ofByte_inj {a b : UInt8} (h : ofByte a = ofByte b) : a = b := by
  apply UInt8.toNat_inj.1
  apply Nat.eq_of_testBit_eq
  intro i
  by_cases hi : i < 8
  · have hbit := congrArg (fun bits : Bits => bits.getD i false) h
    simpa [ofByte, ofNat, hi] using hbit
  · have high : ∀ c : UInt8, c.toNat.testBit i = false := fun c =>
      Nat.testBit_lt_two_pow
        (Nat.lt_of_lt_of_le c.toNat_lt (Nat.pow_le_pow_right (by omega) (by omega)))
    rw [high a, high b]

/-- The bits of a byte string. -/
def ofBytes (data : Bytes) : Bits := data.flatMap ofByte

/-- A byte with one of its eight bits cleared and set anew. -/
def setBit (slot : UInt8) (shift : Nat) (bit : Bool) : UInt8 :=
  (slot &&& ~~~(1 <<< shift.toUInt8)) ||| (bit.toUInt8 <<< shift.toUInt8)

/-- Stores bits in a buffer one after another, from a position on. -/
def store : (position : Nat) → Bits → Array UInt8 → Array UInt8
  | _, [], buffer => buffer
  | position, bit :: rest, buffer =>
    store (position + 1) rest
      (buffer.modify (position / 8) fun slot => setBit slot (position % 8) bit)

/-- A buffer with the given bits written over its first ones. -/
def overwrite (buffer : Bytes) (bits : Bits) : Bytes := (store 0 bits buffer.toArray).toList

/-- The bytes needed for a number of bits. -/
def byteCount (bits : Nat) : Nat := (bits + 7) / 8

@[simp] theorem ofBytes_nil : ofBytes [] = [] := rfl

@[simp] theorem ofBytes_cons (b : UInt8) (rest : Bytes) :
    ofBytes (b :: rest) = ofByte b ++ ofBytes rest := by simp [ofBytes]

@[simp] theorem ofBytes_append (x y : Bytes) : ofBytes (x ++ y) = ofBytes x ++ ofBytes y := by
  simp [ofBytes]

@[simp] theorem length_ofBytes (data : Bytes) : (ofBytes data).length = 8 * data.length := by
  induction data with
  | nil => rfl
  | cons b rest ih => simp [ih]; omega

end Bits

end ZoneRelay
