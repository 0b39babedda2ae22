/-!
# Numerals

The two ways numbers appear in text. **Reading**: an unsigned decimal below a given
bound, with an optional leading `+`, digits only, and three ways to fail. A numeral is
read from the left, so a digit that would carry the value to the bound is reported
before an intruding character further on. **Writing**: hexadecimal with a `0x` mark and
a least number of digits, as the diagnostics quote types, bytes and table entries.
-/

namespace ZoneRelay

namespace Text

/-! ### Reading decimals -/

/-- Why a text is not an unsigned decimal below the bound. -/
inductive NumeralFault where
  /-- There is no text at all. -/
  | empty
  /-- A character that is no digit, or a sign with nothing after it. -/
  | invalidDigit
  /-- The value reaches the bound. -/
  | tooLarge
  deriving DecidableEq, Repr

/-- The wording of a numeral fault. -/
def NumeralFault.message : NumeralFault → String
  | .empty => "cannot parse integer from empty string"
  | .invalidDigit => "invalid digit found in string"
  | .tooLarge => "number too large to fit in target type"

/-- The value of a decimal digit. -/
def decimalDigit? (c : Char) : Option Nat :=
  if c.isDigit then some (c.toNat - '0'.toNat) else none

/-- Reads decimal digits onto `value`, which has to stay below `bound`. -/
def readDigits (bound : Nat) : Nat → List Char → Except NumeralFault Nat
  | value, [] => .ok value
  | value, c :: rest =>
    match decimalDigit? c with
    | none => .error .invalidDigit
    | some d =>
      if bound ≤ 10 * value + d then .error .tooLarge
      else readDigits bound (10 * value + d) rest

/-- Reads an unsigned decimal below `bound`. -/
def readUnsigned (bound : Nat) (text : String) : Except NumeralFault Nat :=
  match text.toList with
  | [] => .error .empty
  | ['+'] => .error .invalidDigit
  | '+' :: digits => readDigits bound 0 digits
  | digits => readDigits bound 0 digits

/-! ### Writing hexadecimal -/

/-- `n` in lower-case hexadecimal after `0x`, with at least `width` digits. -/
def hex (width n : Nat) : String :=
  let digits := Nat.toDigits 16 n
  "0x" ++ String.ofList (List.replicate (width - digits.length) '0' ++ digits)

end Text

end ZoneRelay
