import Mathlib.Algebra.BigOperators.Ring.List
import ZoneRelay.Proofs.Code.Layout

/-!
# One code after another

`ZoneRelay.Code.Lengths` gives every byte an interval of numbers below `2 ^ 32`, and takes the
highest bits of its start for the code. This file reads the codes as numbers, the first bit the
highest (`ZoneRelay.Code.Lengths.value`), and shows that they can be had by counting:

* the first byte has the code zero (`ZoneRelay.Code.Lengths.value_first`), and **each byte has the
  code after the one of the byte before**, with zeros behind it if it is longer
  (`ZoneRelay.Code.Lengths.value_next`);
* **counting never runs over**: a code, and the one after it, have no more bits than they should
  (`ZoneRelay.Code.Lengths.value_lt`, `ZoneRelay.Code.Lengths.succ_value_le`);
* filled up with zeros to 32 bits, the codes are the starts of the intervals
  (`ZoneRelay.Code.Lengths.leftAligned_word`), so they increase from byte to byte.

All of it rests on one divisibility: the bytes in front of a byte have no longer codes, their
intervals are multiples of its own, and so is its start.
-/

namespace ZoneRelay

namespace Bits

/-- A bit string as a number, its first bit the highest. -/
def highFirst (word : Bits) : Nat := toNat word.reverse

/-- A bit string as the highest of 32 bits, its first bit the highest of all. -/
def leftAligned (word : Bits) : Nat := word.highFirst <<< (32 - word.length)

end Bits

namespace Code

/-- A sum of multiples is a multiple. -/
theorem dvd_total {d : Nat} {sizes : List Nat} (h : ∀ size ∈ sizes, d ∣ size) :
    d ∣ total sizes :=
  List.dvd_sum h

namespace Lengths

variable (lengths : Lengths)

/-- **The code of a byte as a number**, its first bit the highest. -/
def value (b : UInt8) : Nat := lengths.start b / lengths.weight b

/-- The interval of a byte is as long as those of as many bytes with a longer code as there are
ways to continue its code. -/
theorem weight_eq_mul {b c : UInt8} (h : lengths.length b ≤ lengths.length c) :
    lengths.weight b = 2 ^ (lengths.length c - lengths.length b) * lengths.weight c := by
  have hc := lengths.length_le c
  rw [weight_eq, weight_eq, ← Nat.pow_add]
  congr 1
  omega

/-- **A byte's interval starts at a multiple of its length.** -/
theorem start_eq (b : UInt8) : lengths.start b = lengths.value b * lengths.weight b := by
  have hdvd : lengths.weight b ∣ lengths.start b := by
    refine dvd_total fun size hsize => ?_
    obtain ⟨c, hc, rfl⟩ := List.mem_map.mp hsize
    have hle := lengths.length_le_of_precedes (List.mem_filter.mp hc).2
    rw [lengths.weight_eq_mul hle]
    exact Nat.dvd_mul_left _ _
  exact (Nat.div_mul_cancel hdvd).symm

/-- **The code after the one of a byte** does not run over, unless to the first number that is too
long. -/
theorem succ_value_le (b : UInt8) : lengths.value b + 1 ≤ 2 ^ lengths.length b := by
  have hfits := lengths.start_add_weight_le_size b
  have hsize : 2 ^ 32 = 2 ^ lengths.length b * lengths.weight b := by
    have hle := lengths.length_le b
    rw [weight_eq, ← Nat.pow_add, Nat.add_sub_cancel' hle]
  rw [start_eq, hsize, ← Nat.succ_mul] at hfits
  exact Nat.le_of_mul_le_mul_right hfits (lengths.weight_pos b)

/-- A code has no more bits than its length. -/
theorem value_lt (b : UInt8) : lengths.value b < 2 ^ lengths.length b :=
  lengths.succ_value_le b

/-- **The first byte has the code zero.** -/
theorem value_first {b : UInt8} (h : ∀ c, lengths.precedes c b = false) : lengths.value b = 0 := by
  have hnone : (allBytes.filter fun c => lengths.precedes c b) = [] :=
    List.filter_eq_nil_iff.mpr fun c _ hc => by
      rw [h c] at hc
      cases hc
  rw [value, start, hnone]
  exact Nat.zero_div _

/-- Where a byte comes next after another one, its interval starts where the other one's ends. -/
theorem start_next {b c : UInt8} (hbc : lengths.precedes b c = true)
    (hnext : ∀ d, lengths.precedes b d = true → lengths.precedes d c = false) :
    lengths.start c = lengths.start b + lengths.weight b := by
  have hperm : (b :: allBytes.filter fun d => lengths.precedes d b).Perm
      (allBytes.filter fun d => lengths.precedes d c) := by
    refine (lengths.subperm_precedes b hbc fun d hd =>
      lengths.precedes_trans hd hbc).antisymm ?_
    refine List.subperm_of_subset (nodup_allBytes.filter _) fun d hd => ?_
    obtain ⟨hmem, hdc⟩ := List.mem_filter.mp hd
    rcases eq_or_ne d b with rfl | hne
    · exact List.mem_cons_self
    · refine List.mem_cons_of_mem _ (List.mem_filter.mpr ⟨hmem, ?_⟩)
      rcases lengths.precedes_or_precedes hne with hdb | hbd
      · exact hdb
      · rw [hnext d hbd] at hdc
        cases hdc
  have hsum : total (lengths.weight b ::
      (allBytes.filter fun d => lengths.precedes d b).map lengths.weight) = lengths.start c :=
    (hperm.map lengths.weight).sum_eq
  rw [← hsum, Nat.add_comm]
  rfl

/-- **Codes by counting**: where a byte comes next after another one, its code is the other one's
and one, with zeros behind it up to its own length. -/
theorem value_next {b c : UInt8} (hbc : lengths.precedes b c = true)
    (hnext : ∀ d, lengths.precedes b d = true → lengths.precedes d c = false) :
    lengths.value c =
      (lengths.value b + 1) <<< (lengths.length c - lengths.length b) := by
  have hstart := lengths.start_next hbc hnext
  rw [start_eq, start_eq, ← Nat.succ_mul,
    lengths.weight_eq_mul (lengths.length_le_of_precedes hbc), ← Nat.mul_assoc] at hstart
  rw [Nat.shiftLeft_eq]
  exact Nat.eq_of_mul_eq_mul_right (lengths.weight_pos c) hstart

/-! ### The bits of a code -/

/-- The bits of a code are those of its number, the highest first. -/
theorem getElem?_word_value (b : UInt8) {i : Nat} (h : i < lengths.length b) :
    (lengths.word b)[i]? = some ((lengths.value b).testBit (lengths.length b - 1 - i)) := by
  have h32 := lengths.length_le b
  rw [lengths.getElem?_word b h, value, weight_eq, Nat.testBit_div_two_pow]
  congr 2
  omega

/-- **A code read from its first bit on** is its number. -/
theorem highFirst_word (b : UInt8) : (lengths.word b).highFirst = lengths.value b := by
  rw [Bits.highFirst]
  refine Nat.eq_of_testBit_eq fun i => ?_
  rw [Bits.testBit_toNat, List.getD_eq_getElem?_getD]
  by_cases hi : i < lengths.length b
  · have hback : lengths.length b - 1 - i < lengths.length b := by omega
    rw [List.getElem?_reverse (by rwa [length_word]), length_word,
      lengths.getElem?_word_value b hback, Option.getD_some]
    congr 1
    omega
  · have hlarge : lengths.value b < 2 ^ i :=
      (lengths.value_lt b).trans_le (Nat.pow_le_pow_right (by omega) (by omega))
    rw [List.getElem?_eq_none (by rw [List.length_reverse, length_word]; omega),
      Nat.testBit_lt_two_pow hlarge]
    rfl

/-- **The codes, filled up with zeros, are the starts of the intervals.** -/
theorem leftAligned_word (b : UInt8) : (lengths.word b).leftAligned = lengths.start b := by
  rw [Bits.leftAligned, highFirst_word, length_word, Nat.shiftLeft_eq, start_eq, weight_eq]

/-- The codes increase from byte to byte. -/
theorem leftAligned_lt {b c : UInt8} (h : lengths.precedes b c = true) :
    (lengths.word b).leftAligned < (lengths.word c).leftAligned := by
  have hle := lengths.start_add_weight_le h
  have hpos := lengths.weight_pos b
  rw [leftAligned_word, leftAligned_word]
  omega

end Lengths

end Code

end ZoneRelay
