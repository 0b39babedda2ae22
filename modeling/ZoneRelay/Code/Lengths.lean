import ZoneRelay.Code.Encoder

/-!
# Codes from their lengths

A prefix code is fixed, up to naming, by the lengths of its codes. Given a length between
1 and 32 for each byte, think of the numbers below `2 ^ 32` as the leaves of a tree of
depth 32: a code of `n` bits takes an interval of `2 ^ (32 - n)` of them
(`ZoneRelay.Code.Lengths.weight`). The bytes take their intervals one after another,
shorter codes first and bytes of one length in their own order; a byte's interval starts
where the bytes before it end (`ZoneRelay.Code.Lengths.start`), and its code is the first
`n` bits of that start, high bit first (`ZoneRelay.Code.Lengths.word`).

The lengths fit if and only if the intervals together are no longer than `2 ^ 32`; this is
Kraft's inequality, and `ZoneRelay.Code.Lengths` carries it along with the range of the
lengths.
-/

namespace ZoneRelay

namespace Code

/-- The size of the interval that a code of the given length takes. -/
def weightOf (bits : Nat) : Nat := 1 <<< (32 - bits)

/-- The sum of some sizes. -/
def total (sizes : List Nat) : Nat := sizes.foldr (· + ·) 0

/-- The sizes of all intervals together. -/
def kraftSum (lengths : Vector UInt32 256) : Nat :=
  total (lengths.toList.map fun bits => weightOf bits.toNat)

/-- Code lengths that a prefix code has. -/
structure Lengths where
  bits : Vector UInt32 256
  inRange : ∀ n ∈ bits, 1 ≤ n ∧ n ≤ 32
  kraft : kraftSum bits ≤ UInt32.size

namespace Lengths

/-- The length of a byte's code. -/
def length (lengths : Lengths) (b : UInt8) : Nat := (lengths.bits.get (index b)).toNat

/-- Whether a code length is between 1 and 32. -/
def admissible (n : UInt32) : Bool := 1 ≤ n && n ≤ 32

/-- When no byte's code length is out of range, no code length is. -/
theorem inRange_of_find? (bits : Vector UInt32 256)
    (h : (allBytes.find? fun b => !admissible (bits.get (index b))) = none) :
    ∀ n ∈ bits, 1 ≤ n ∧ n ≤ 32 := by
  intro n hn
  obtain ⟨i, hi, rfl⟩ := Vector.mem_iff_getElem.1 hn
  have := List.find?_eq_none.1 h i.toUInt8 (mem_allBytes _)
  have same : index i.toUInt8 = ⟨i, hi⟩ := Fin.ext (by simp [index, Nat.mod_eq_of_lt hi])
  simp only [admissible, same, Bool.not_eq_true, Bool.not_eq_false', Bool.and_eq_true,
    decide_eq_true_eq] at this
  exact this

/-- Checks code lengths: first their range, byte by byte, then Kraft's inequality. -/
def ofVector (bits : Vector UInt32 256) : Except TableFault Lengths :=
  match h : allBytes.find? fun b => !admissible (bits.get (index b)) with
  | some b => .error (.lengthOutOfRange (bits.get (index b)) b)
  | none =>
    if kraft : kraftSum bits ≤ UInt32.size then .ok ⟨bits, inRange_of_find? bits h, kraft⟩
    else .error (.notPrefixCode (kraftSum bits))

/-- Three bits for `0x00`, `0x20`, `0x65` and `0xFF`, nine for every other byte. -/
def standardBits (b : Nat) : UInt32 :=
  if b = 0x00 ∨ b = 0x20 ∨ b = 0x65 ∨ b = 0xFF then 3 else 9

/-- The standard lengths are between 1 and 32. -/
theorem standardBits_inRange (b : Nat) : 1 ≤ standardBits b ∧ standardBits b ≤ 32 := by
  unfold standardBits
  split <;> decide

/-- The standard lengths keep Kraft's inequality. -/
theorem standardBits_kraft :
    total (((List.range 256).map standardBits).map fun bits => weightOf bits.toNat) ≤
      UInt32.size := by
  decide +kernel

/-- The code lengths that are used unless others are given. -/
def standard : Lengths where
  bits := ⟨((List.range 256).map standardBits).toArray, by simp⟩
  inRange := by
    intro n hn
    have listed : n ∈ (List.range 256).map standardBits := by
      simpa only [Vector.mem_mk, List.mem_toArray] using hn
    obtain ⟨b, _, rfl⟩ := List.mem_map.1 listed
    exact standardBits_inRange b
  kraft := standardBits_kraft

/-- Whether a byte takes its interval before another one. -/
def precedes (lengths : Lengths) (b c : UInt8) : Bool :=
  lengths.length b < lengths.length c || (lengths.length b == lengths.length c && b < c)

/-- The size of a byte's interval. -/
def weight (lengths : Lengths) (b : UInt8) : Nat := weightOf (lengths.length b)

/-- Where a byte's interval starts. -/
def start (lengths : Lengths) (b : UInt8) : Nat :=
  total ((allBytes.filter fun c => lengths.precedes c b).map lengths.weight)

/-- The code of a byte: the highest bits of the start of its interval. -/
def word (lengths : Lengths) (b : UInt8) : Bits :=
  (List.range (lengths.length b)).map fun i => (lengths.start b).testBit (31 - i)

/-- The code of a byte as an entry of the encoder. -/
def entry (lengths : Lengths) (b : UInt8) : Entry :=
  ⟨(Bits.toNat (lengths.word b)).toUInt32, lengths.length b⟩

/-- The encoder with the given code lengths. -/
def encoder (lengths : Lengths) : Encoder := Encoder.ofFn lengths.entry

end Lengths

end Code

end ZoneRelay
