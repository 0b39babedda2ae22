/-!
# The shortest decimal of a dyadic number

A dyadic number `n / 2 ^ s` that a 53-bit significand can hold is printed with the
fewest decimal digits that read back to the same significand, positionally and without
an exponent: `128`, `1.5`, `1.0000000002328306`.

The number is written as `m * 2 ^ q` with `2 ^ 52 ≤ m < 2 ^ 53`. The decimals that
read back to it form an interval around it that reaches half way to either neighbour,
ends included exactly when `m` is even; below a power of two the lower neighbour is
nearer by half. For one digit, then two, and so on, the two decimals next to the number
on that grid are tested: if any decimal with so many digits lies in the interval, one of
these two does. All comparisons are between natural numbers.
-/

namespace ZoneRelay

namespace Text

/-- A finite decimal `digits * 10 ^ shift / 10 ^ places`; one of `shift` and `places`
is zero. -/
structure Decimal where
  digits : Nat
  shift : Nat
  places : Nat
  deriving DecidableEq, Repr

/-- A power of ten. -/
def tenTo (k : Nat) : Nat := Nat.pow 10 k

/-- The digits of a decimal in positional notation, without zeros at the end of the
fraction. -/
def Decimal.positional (d : Decimal) : String :=
  let whole := d.digits * tenTo d.shift / tenTo d.places
  let rest := d.digits * tenTo d.shift % tenTo d.places
  let fraction := Nat.toDigits 10 rest
  let padded := List.replicate (d.places - fraction.length) '0' ++ fraction
  let kept := (padded.reverse.dropWhile (· == '0')).reverse
  let head := String.ofList (Nat.toDigits 10 whole)
  if kept.isEmpty then head else head ++ "." ++ String.ofList kept

/-- The decimals of `count` digits next to `n / 2 ^ s`, as multiples of a power of ten;
`size` is the number of digits before the point. -/
def grid (n s size count : Nat) : List Decimal :=
  if count ≤ size then
    let below := (n >>> s) / tenTo (size - count)
    [⟨below, size - count, 0⟩, ⟨below + 1, size - count, 0⟩]
  else
    let below := (n * tenTo (count - size)) >>> s
    [⟨below, 0, count - size⟩, ⟨below + 1, 0, count - size⟩]

/-- The distance between `n / 2 ^ s` and a decimal, times `2 ^ s * 10 ^ places`. -/
def Decimal.distance (d : Decimal) (n s : Nat) : Nat :=
  let a := (d.digits * tenTo d.shift) <<< s
  let b := n * tenTo d.places
  (a - b) + (b - a)

/-- Whether a decimal reads back to `n / 2 ^ s`. The spacing of significands at `n` is
`2 ^ (log2 n - 52)` in units of `2 ^ (-s)`. -/
def Decimal.readsBack (d : Decimal) (n s : Nat) : Bool :=
  let top := Nat.log2 n
  let half := 1 <<< (top + 1)                -- half the spacing times `2 ^ 54`
  let low := if n = 1 <<< top then half / 2 else half
  let room := if (d.digits * tenTo d.shift) <<< s < n * tenTo d.places then low else half
  let even := (if top ≤ 52 then n <<< (52 - top) else n >>> (top - 52)) % 2 == 0
  let gap := d.distance n s <<< 54
  let limit := room * tenTo d.places
  if even then gap ≤ limit else gap < limit

/-- The nearer of the decimals that read back, if any does. -/
def nearest? (n s : Nat) (candidates : List Decimal) : Option Decimal :=
  (candidates.filter (·.readsBack n s)).foldl
    (fun best d =>
      match best with
      | none => some d
      | some b => if d.distance n s < b.distance n s then some d else some b) none

/-- The shortest positional decimal of `n / 2 ^ s`. Seventeen digits always suffice. -/
def shortest (n s : Nat) : String :=
  let size := (Nat.toDigits 10 (n >>> s)).length
  let found := (List.range 17).findSome? fun k => nearest? n s (grid n s size (k + 1))
  match found with
  | some d => d.positional
  | none => (Decimal.mk (n >>> s) 0 0).positional

end Text

end ZoneRelay
