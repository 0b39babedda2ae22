import Mathlib.InformationTheory.Coding.KraftMcMillan
import ZoneRelay.Proofs.Code.Succession

/-!
# Which code lengths there is a code for

`ZoneRelay.Code.Lengths.ofVector` takes code lengths if they are between 1 and 32 and keep
Kraft's inequality. This file shows that it takes **exactly the lengths that some prefix code
has** (`ZoneRelay.Code.Realizes`), and collects what the code is that is built from them
(`ZoneRelay.Code.Counted`).

| from | to | by |
|------|----|----|
| a prefix code | one that is uniquely decodable | `ZoneRelay.Code.uniquelyDecodable_of_prefix` |
| a uniquely decodable one | Kraft's inequality | `ZoneRelay.Code.Realizes.kraft` |
| Kraft's inequality | lengths that are taken | `ZoneRelay.Code.Lengths.exists_ofVector_iff` |
| lengths that are taken | the counted code | `ZoneRelay.Code.Lengths.counted_encoder` |
| the counted code | a prefix code | `ZoneRelay.Code.Counted.realizes` |

So the round closes, and the code that is built is as good as any.

## The sum in floating point

Kraft's sum is usually added up as a floating-point number, and the inequality is a comparison
with one. Rounding could then spoil it, one way or the other. It does not, since there is nothing
to round: in units of `2 ^ (-32)` all the sums are natural numbers below `2 ^ 53`, which a
significand of 53 bits holds (`ZoneRelay.Code.roundedSum_eq_kraftSum`).
-/

namespace ZoneRelay

namespace Code

/-! ### Prefix codes -/

/-- A prefix code with the given code lengths: no byte's code begins with another byte's. -/
structure Realizes (bits : Vector UInt32 256) (code : UInt8 → Bits) : Prop where
  length_eq : ∀ b, (code b).length = (bits.get (index b)).toNat
  prefixFree : ∀ b c, code b <+: code c → b = c

/-- **A code whose words do not begin with one another can be read from the left**: the first
words of two readings of one text begin with one another, and so are the same. -/
theorem uniquelyDecodable_of_prefix {α : Type} {S : Set (List α)} (hnil : [] ∉ S)
    (hfree : ∀ v ∈ S, ∀ w ∈ S, v <+: w → v = w) :
    InformationTheory.UniquelyDecodable S := by
  -- an empty text has no words in it, as none of them is empty
  have hempty : ∀ {w : List α} {rest : List (List α)}, w ∈ S → (w :: rest).flatten ≠ [] := by
    intro w rest hw h
    rw [List.flatten_cons, List.append_eq_nil_iff] at h
    exact hnil (h.1 ▸ hw)
  intro left
  induction left with
  | nil =>
    intro right _ hright h
    cases right with
    | nil => rfl
    | cons w rest => exact absurd h.symm (hempty (hright w List.mem_cons_self))
  | cons v left ih =>
    intro right hleft hright h
    cases right with
    | nil => exact absurd h (hempty (hleft v List.mem_cons_self))
    | cons w right =>
      have hv := hleft v List.mem_cons_self
      have hw := hright w List.mem_cons_self
      rw [List.flatten_cons, List.flatten_cons] at h
      obtain rfl : v = w := by
        rcases List.prefix_or_prefix_of_prefix (List.prefix_append v _)
          (h ▸ List.prefix_append w _) with hvw | hwv
        · exact hfree v hv w hw hvw
        · exact (hfree w hw v hv hwv).symm
      rw [ih right (fun u hu => hleft u (List.mem_cons_of_mem _ hu))
        (fun u hu => hright u (List.mem_cons_of_mem _ hu)) (List.append_cancel_left h)]

namespace Realizes

variable {bits : Vector UInt32 256} {code : UInt8 → Bits}

theorem injective (h : Realizes bits code) : Function.Injective code :=
  fun b c hbc => h.prefixFree b c (hbc ▸ List.prefix_rfl)

/-- The code words are uniquely decodable. -/
theorem uniquelyDecodable (h : Realizes bits code) : InformationTheory.UniquelyDecodable
    ((allBytes.toFinset.image code : Finset Bits) : Set Bits) := by
  refine uniquelyDecodable_of_prefix (fun hnil => ?_) fun v hv w hw hvw => ?_
  · -- an empty code would begin all others
    rw [Finset.mem_coe, Finset.mem_image] at hnil
    obtain ⟨b, -, hb⟩ := hnil
    have hne : b ≠ b + 1 := by grind
    exact hne (h.prefixFree b (b + 1) (hb ▸ List.nil_prefix))
  · rw [Finset.mem_coe, Finset.mem_image] at hv hw
    obtain ⟨b, -, rfl⟩ := hv
    obtain ⟨c, -, rfl⟩ := hw
    rw [h.prefixFree b c hvw]

/-- The size of a byte's interval among `2 ^ 32` numbers. -/
theorem weightOf_div (h : Realizes bits code) (hrange : ∀ n ∈ bits, 1 ≤ n ∧ n ≤ 32) (b : UInt8) :
    (weightOf (bits.get (index b)).toNat : ℝ) = 2 ^ 32 * (1 / (2 : ℝ)) ^ (code b).length := by
  have hle : (bits.get (index b)).toNat ≤ 32 :=
    UInt32.le_iff_toNat_le.mp (hrange _ (Vector.getElem_mem _)).2
  rw [weightOf_eq, h.length_eq, Nat.cast_pow, Nat.cast_ofNat, pow_sub₀ (2 : ℝ) two_ne_zero hle,
    one_div, inv_pow]

/-- **Kraft's inequality**: no prefix code has lengths that do not keep it. -/
theorem kraft (h : Realizes bits code) (hrange : ∀ n ∈ bits, 1 ≤ n ∧ n ≤ 32) :
    kraftSum bits ≤ UInt32.size := by
  have hinequality := InformationTheory.kraft_mcmillan_inequality h.uniquelyDecodable
  rw [Finset.sum_image h.injective.injOn, Fintype.card_bool, Nat.cast_ofNat] at hinequality
  have hsum : (kraftSum bits : ℝ) =
      2 ^ 32 * ∑ b ∈ allBytes.toFinset, (1 / (2 : ℝ)) ^ (code b).length := by
    rw [Finset.mul_sum, List.sum_toFinset _ nodup_allBytes, kraftSum_eq_total]
    have hcast := Nat.cast_list_sum (R := ℝ)
      (allBytes.map fun b => weightOf (bits.get (index b)).toNat)
    rw [List.map_map] at hcast
    exact hcast.trans (congrArg List.sum (List.map_congr_left fun b _ => h.weightOf_div hrange b))
  have hle : (kraftSum bits : ℝ) ≤ (UInt32.size : ℝ) := by
    rw [hsum, UInt32.size]
    push_cast
    linarith
  exact_mod_cast hle

end Realizes

/-! ### The sum in floating point -/

/-- A number rounded to a significand of 53 bits, to the nearest such number and of two to the
even one. -/
def nearest53 (n : Nat) : Nat :=
  let unit := 2 ^ (n.log2 - 52)
  let up := unit < 2 * (n % unit) || (unit == 2 * (n % unit) && n / unit % 2 == 1)
  unit * (n / unit + up.toNat)

/-- Kraft's sum with rounding after each addition, in units of `2 ^ (-32)`. -/
def roundedSum (lengths : Vector UInt32 256) : Nat :=
  lengths.toList.foldl (fun sum bits => nearest53 (sum + weightOf bits.toNat)) 0

/-- **Numbers of 53 bits are not rounded.** -/
theorem nearest53_of_lt {n : Nat} (h : n < 2 ^ 53) : nearest53 n = n := by
  have hlog : n.log2 - 52 = 0 := by
    rcases Nat.eq_zero_or_pos n with rfl | hpos
    · rfl
    · have := (Nat.log2_lt (Nat.pos_iff_ne_zero.mp hpos)).mpr h
      omega
  simp [nearest53, hlog, Nat.mod_one]

/-- The next number is the first that is. -/
example : nearest53 (2 ^ 53) = 2 ^ 53 ∧ nearest53 (2 ^ 53 + 1) = 2 ^ 53 := by decide

/-- Sums that stay below 53 bits are not rounded on the way. -/
theorem foldl_nearest53 {α : Type} (size : α → Nat) (items : List α) (sum : Nat)
    (h : sum + total (items.map size) < 2 ^ 53) :
    items.foldl (fun sum item => nearest53 (sum + size item)) sum =
      sum + total (items.map size) := by
  induction items generalizing sum with
  | nil => rfl
  | cons item items ih =>
    have hcons : total ((item :: items).map size) = size item + total (items.map size) := rfl
    rw [hcons, ← Nat.add_assoc] at h ⊢
    have hlt : sum + size item < 2 ^ 53 := by omega
    rw [List.foldl_cons, nearest53_of_lt hlt, ih _ h]

/-- **The sum is exact**: 256 sizes of at most `2 ^ 31` have 40 bits. -/
theorem roundedSum_eq_kraftSum {bits : Vector UInt32 256} (h : ∀ n ∈ bits, 1 ≤ n ∧ n ≤ 32) :
    roundedSum bits = kraftSum bits := by
  have hle : ∀ size ∈ bits.toList.map fun n => weightOf n.toNat, size ≤ 2 ^ 31 := by
    intro size hsize
    obtain ⟨n, hn, rfl⟩ := List.mem_map.mp hsize
    have hpos : 1 ≤ n.toNat := UInt32.le_iff_toNat_le.mp (h n (Vector.mem_toList_iff.mp hn)).1
    rw [weightOf_eq]
    exact Nat.pow_le_pow_right (by omega) (by omega)
  have htotal : total (bits.toList.map fun n => weightOf n.toNat) ≤ 256 * 2 ^ 31 := by
    refine (List.sum_le_card_nsmul _ _ hle).trans_eq ?_
    rw [List.length_map, Vector.length_toList, smul_eq_mul]
  have hfold := foldl_nearest53 (fun n : UInt32 => weightOf n.toNat) bits.toList 0 (by omega)
  rw [Nat.zero_add] at hfold
  exact hfold

/-! ### The lengths that are taken -/

namespace Lengths

/-- Lengths that are taken are kept. -/
theorem bits_of_ofVector {bits : Vector UInt32 256} {lengths : Lengths}
    (h : ofVector bits = .ok lengths) : lengths.bits = bits := by
  unfold ofVector at h
  split at h
  · cases h
  · split at h
    · cases h
      rfl
    · cases h

/-- **The lengths that are taken** are those in range that keep Kraft's inequality. -/
theorem exists_ofVector_iff {bits : Vector UInt32 256} :
    (∃ lengths, ofVector bits = .ok lengths) ↔
      (∀ n ∈ bits, 1 ≤ n ∧ n ≤ 32) ∧ kraftSum bits ≤ UInt32.size := by
  constructor
  · rintro ⟨lengths, h⟩
    obtain rfl := bits_of_ofVector h
    exact ⟨lengths.inRange, lengths.kraft⟩
  · rintro ⟨hrange, hkraft⟩
    have hfind : (allBytes.find? fun b => !admissible (bits.get (index b))) = none :=
      List.find?_eq_none.mpr fun b _ => by
        have hb : 1 ≤ bits.get (index b) ∧ bits.get (index b) ≤ 32 :=
          hrange _ (Vector.getElem_mem _)
        rw [admissible, decide_eq_true hb.1, decide_eq_true hb.2]
        exact Bool.false_ne_true
    unfold ofVector
    split
    · rename_i b hb
      rw [hfind] at hb
      cases hb
    · exact ⟨_, dif_pos hkraft⟩

end Lengths

/-! ### The code that is built -/

/-- The order of the bytes by code length, and bytes of one length in their own order. -/
def Shorter (bits : Vector UInt32 256) (b c : UInt8) : Prop :=
  bits.get (index b) < bits.get (index c) ∨ bits.get (index b) = bits.get (index c) ∧ b < c

/-- **The code had by counting** through the bytes in the order of their code lengths. -/
structure Counted (bits : Vector UInt32 256) (encoder : Encoder) : Prop where
  /-- Each byte has a code of its length. -/
  bits_eq : ∀ b, (encoder.entry b).bits = (bits.get (index b)).toNat
  /-- The pattern is no wider than the code. -/
  pattern_lt : ∀ b, (encoder.entry b).pattern.toNat < 2 ^ (encoder.entry b).bits
  /-- No byte's code begins with another byte's. -/
  prefixFree : ∀ b c, (encoder.entry b).word <+: (encoder.entry c).word → b = c
  /-- The first byte has the code zero. -/
  first : ∀ b, (∀ c, ¬ Shorter bits c b) → (encoder.entry b).word.highFirst = 0
  /-- A byte that comes next has the next code, with zeros behind it up to its length. -/
  next : ∀ b c, Shorter bits b c → (∀ d, Shorter bits b d → ¬ Shorter bits d c) →
    (encoder.entry c).word.highFirst = ((encoder.entry b).word.highFirst + 1) <<<
      ((encoder.entry c).bits - (encoder.entry b).bits)
  /-- Counting on from a code does not run over. -/
  fits : ∀ b, (encoder.entry b).word.highFirst + 1 ≤ 2 ^ (encoder.entry b).bits
  /-- Filled up with zeros to 32 bits, the codes increase. -/
  increasing : ∀ b c, Shorter bits b c →
    (encoder.entry b).word.leftAligned < (encoder.entry c).word.leftAligned

/-- A counted code has the lengths it was counted for. -/
theorem Counted.realizes {bits : Vector UInt32 256} {encoder : Encoder}
    (h : Counted bits encoder) : Realizes bits fun b => (encoder.entry b).word where
  length_eq := fun b => (Entry.length_word _).trans (h.bits_eq b)
  prefixFree := h.prefixFree

namespace Lengths

variable (lengths : Lengths)

theorem shorter_iff {b c : UInt8} :
    Shorter lengths.bits b c ↔ lengths.precedes b c = true := by
  rw [precedes_iff, Shorter, UInt32.lt_iff_toNat_lt, ← UInt32.toNat_inj]
  rfl

/-- **The codes that are built from lengths are counted.** -/
theorem counted_encoder : Counted lengths.bits lengths.encoder where
  bits_eq := fun b => by
    rw [entry_encoder]
    rfl
  pattern_lt := fun b => by
    rw [entry_encoder, toNat_pattern]
    exact lengths.toNat_word_lt b
  prefixFree := fun b c h => by
    rw [entry_encoder, entry_encoder, word_entry, word_entry] at h
    exact lengths.word_injective_prefix h
  first := fun b h => by
    rw [entry_encoder, word_entry, highFirst_word]
    refine lengths.value_first fun c => ?_
    have hc := h c
    rwa [shorter_iff, Bool.not_eq_true] at hc
  next := fun b c hbc hnext => by
    rw [entry_encoder, entry_encoder, word_entry, word_entry, highFirst_word, highFirst_word]
    refine lengths.value_next (lengths.shorter_iff.mp hbc) fun d hbd => ?_
    have hd := hnext d (lengths.shorter_iff.mpr hbd)
    rwa [shorter_iff, Bool.not_eq_true] at hd
  fits := fun b => by
    rw [entry_encoder, word_entry, highFirst_word]
    exact lengths.succ_value_le b
  increasing := fun b c h => by
    rw [entry_encoder, entry_encoder, word_entry, word_entry]
    exact lengths.leftAligned_lt (lengths.shorter_iff.mp h)

end Lengths

/-! ### The statement -/

/-- **Code lengths are taken if and only if a prefix code has them**, and in range; added up in
floating point, the sum that decides it is exact; and from all lengths that are taken the code is
built by counting. -/
theorem ofVector_realizes (bits : Vector UInt32 256) :
    ((∃ lengths, Lengths.ofVector bits = .ok lengths) ↔
      (∀ n ∈ bits, 1 ≤ n ∧ n ≤ 32) ∧ ∃ code, Realizes bits code) ∧
    ((∀ n ∈ bits, 1 ≤ n ∧ n ≤ 32) → roundedSum bits = kraftSum bits) ∧
    ∀ lengths, Lengths.ofVector bits = .ok lengths → Counted bits lengths.encoder := by
  have hcounted : ∀ lengths, Lengths.ofVector bits = .ok lengths →
      Counted bits lengths.encoder := by
    intro lengths h
    rw [← Lengths.bits_of_ofVector h]
    exact lengths.counted_encoder
  refine ⟨⟨fun h => ?_, fun h => ?_⟩, roundedSum_eq_kraftSum, hcounted⟩
  · obtain ⟨lengths, hlengths⟩ := h
    exact ⟨(Lengths.exists_ofVector_iff.mp ⟨lengths, hlengths⟩).1,
      _, (hcounted lengths hlengths).realizes⟩
  · obtain ⟨hrange, code, hcode⟩ := h
    exact Lengths.exists_ofVector_iff.mpr ⟨hrange, hcode.kraft hrange⟩

/-- The standard lengths are taken, and have a counted code. -/
theorem ofVector_realizes_standard :
    ∃ lengths, Lengths.ofVector Lengths.standard.bits = .ok lengths ∧
      Counted Lengths.standard.bits lengths.encoder := by
  obtain ⟨hiff, -, hcounted⟩ := ofVector_realizes Lengths.standard.bits
  obtain ⟨lengths, hlengths⟩ := hiff.mpr
    ⟨Lengths.standard.inRange, _, Lengths.standard.counted_encoder.realizes⟩
  exact ⟨lengths, hlengths, hcounted lengths hlengths⟩

end Code

end ZoneRelay
