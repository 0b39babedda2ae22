/-!
# Numerals as lists of digits

Numbers are written by `Nat.toDigits`, in base 10 and in base 16, and read again in several ways:
from characters and from bytes, with and without a bound. All that reading needs to know of a
numeral is that **it is a list of digits** (`ZoneRelay.Text.exists_digits`) which spells the number
(`ZoneRelay.Text.valueOf`), and whose first digit is no zero unless it is the only one.
-/

namespace ZoneRelay

namespace Text

/-- The number that digits spell. -/
def valueOf (base : Nat) (digits : List Nat) : Nat :=
  digits.foldl (fun value digit => value * base + digit) 0

theorem valueOf_append_singleton (base : Nat) (digits : List Nat) (digit : Nat) :
    valueOf base (digits ++ [digit]) = valueOf base digits * base + digit := by
  rw [valueOf, List.foldl_append]
  rfl

/-- **A numeral is spelled by digits** of its base. -/
structure Spells (base n : Nat) (digits : List Nat) : Prop where
  toDigits_eq : Nat.toDigits base n = digits.map Nat.digitChar
  lt_base : ∀ digit ∈ digits, digit < base
  value_eq : valueOf base digits = n
  of_zero : digits.head? = some 0 → digits.length = 1

namespace Spells

variable {base n : Nat} {digits : List Nat}

theorem length_eq (h : Spells base n digits) :
    digits.length = (Nat.toDigits base n).length := by
  rw [h.toDigits_eq, List.length_map]

theorem ne_nil (h : Spells base n digits) : digits ≠ [] := by
  rintro rfl
  exact Nat.toDigits_ne_nil h.toDigits_eq

/-- A number that is not zero has a first digit that is not zero. -/
theorem head?_ne_zero (h : Spells base n digits) (hn : 0 < n) : digits.head? ≠ some 0 := by
  intro hzero
  have hone := h.of_zero hzero
  rcases digits with _ | ⟨first, _ | ⟨second, rest⟩⟩
  · cases hzero
  · obtain rfl : first = 0 := Option.some.inj hzero
    have hvalue := h.value_eq
    rw [valueOf, List.foldl_cons, List.foldl_nil] at hvalue
    omega
  · cases hone

/-- One digit more. -/
theorem snoc (h : Spells base n digits) (hbase : 1 < base) (hn : 0 < n) {digit : Nat}
    (hdigit : digit < base) : Spells base (base * n + digit) (digits ++ [digit]) where
  toDigits_eq := by
    rw [← Nat.toDigits_append_toDigits hbase hn hdigit, h.toDigits_eq,
      Nat.toDigits_of_lt_base hdigit, List.map_append]
    rfl
  lt_base other hmem := by
    rcases List.mem_append.mp hmem with hmem | hmem
    · exact h.lt_base other hmem
    · rwa [List.mem_singleton.mp hmem]
  value_eq := by
    rw [valueOf_append_singleton, h.value_eq, Nat.mul_comm]
  of_zero hzero := by
    obtain ⟨first, rest, rfl⟩ := List.exists_cons_of_ne_nil h.ne_nil
    exact absurd hzero (h.head?_ne_zero hn)

end Spells

/-- **Every numeral is spelled by digits.** -/
theorem exists_digits {base : Nat} (hbase : 1 < base) (n : Nat) :
    ∃ digits, Spells base n digits := by
  induction n using Nat.base_induction base hbase with
  | single n hlt =>
    refine ⟨[n], ?_, ?_, ?_, fun _ => rfl⟩
    · exact Nat.toDigits_of_lt_base hlt
    · intro digit hmem
      rwa [List.mem_singleton.mp hmem]
    · rw [valueOf, List.foldl_cons, List.foldl_nil, Nat.zero_mul, Nat.zero_add]
  | digit n digit hdigit hpos ih =>
    obtain ⟨digits, h⟩ := ih
    exact ⟨_, h.snoc hbase hpos hdigit⟩

end Text

end ZoneRelay
