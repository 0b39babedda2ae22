import ZoneRelay.Text.Reader
import ZoneRelay.Toml.Value

/-!
# TOML numbers and dates

An underscore may stand between two digits of a number. An integer is decimal, with an
optional sign and no zero in front of other digits, or without a sign in base 16, 8 or 2,
and has to fit in 64 bits with a sign. A number with a fraction or an exponent has to stay
below the largest number of its format – it may fall below the least. A date has to exist
in the calendar; a time may stand behind it or alone, and only behind a date an offset.
-/

namespace ZoneRelay

namespace Toml

open Text (Reader)

/-! ### Digits -/

/-- The digits of a base. -/
def isDigitOf (base : Nat) (c : Char) : Bool :=
  if base ≤ 10 then '0' ≤ c && c.toNat < '0'.toNat + base
  else c.isDigit || ('a' ≤ c && c ≤ 'f') || ('A' ≤ c && c ≤ 'F')

/-- The value of a digit. -/
def digitValue (c : Char) : Nat :=
  if c.isDigit then c.toNat - '0'.toNat
  else if 'a' ≤ c then c.toNat - 'a'.toNat + 10
  else c.toNat - 'A'.toNat + 10

/-- The number that digits spell. -/
def digitsValue (base : Nat) (digits : List Char) : Nat :=
  digits.foldl (fun n c => n * base + digitValue c) 0

/-- Digits behind a first one, with single underscores between them. -/
def moreDigits (base : Nat) : List Char → List Char × List Char
  | [] => ([], [])
  | c :: rest =>
    if isDigitOf base c then
      let (digits, rest) := moreDigits base rest
      (c :: digits, rest)
    else if c = '_' && rest.head?.any (isDigitOf base) then moreDigits base rest
    else ([], c :: rest)

/-- At least one digit, with single underscores between digits. -/
def readDigits (base : Nat) : Reader (List Char)
  | [] => none
  | c :: rest =>
    if isDigitOf base c then
      let (digits, rest) := moreDigits base rest
      some (c :: digits, rest)
    else none

/-- A plus or minus sign, if there is one: whether it is a minus. -/
def readSign : List Char → Bool × List Char
  | '-' :: rest => (true, rest)
  | '+' :: rest => (false, rest)
  | text => (false, text)

/-- Decimal digits without a zero in front of others. -/
def readWhole : Reader (List Char)
  | '0' :: rest => some (['0'], rest)
  | text => readDigits 10 text

/-! ### Numbers -/

/-- The first number that does not fit in 64 bits with a sign. -/
def integerBound : Nat := 0x8000000000000000

/-- An integer that fits in 64 bits with a sign. -/
def integer? (negative : Bool) (n : Nat) : Option Value :=
  if negative then if n ≤ integerBound then some (.integer (-n)) else none
  else if n < integerBound then some (.integer n) else none

/-- A fraction: a point and at least one digit, if there is a point. -/
def readFraction : Reader (List Char)
  | '.' :: rest => readDigits 10 rest
  | text => some ([], text)

/-- An exponent, if there is one: its value, or that there is none. -/
def readExponent : Reader (Option Int)
  | c :: rest =>
    if c = 'e' || c = 'E' then
      let (negative, rest) := readSign rest
      (readDigits 10 rest).map fun (digits, rest) =>
        let n : Int := digitsValue 10 digits
        (some (if negative then -n else n), rest)
    else some (none, c :: rest)
  | [] => some (none, [])

/-- The least number that is rounded to infinity. -/
def overflow : Nat := 1 <<< 1024 - 1 <<< 970

/-- Whether `digits * 10 ^ shift` is rounded to infinity. Numbers with more than 400 digits
before the point are, and those with none there are not. -/
def overflows (digits : List Char) (shift : Int) : Bool :=
  let kept := digits.dropWhile (· == '0')
  let size : Int := kept.length + shift
  if kept.isEmpty || size ≤ 0 then false
  else if 400 < size then true
  else
    let n := digitsValue 10 kept
    if 0 ≤ shift then overflow ≤ n * Nat.pow 10 shift.toNat
    else overflow * Nat.pow 10 (-shift).toNat ≤ n

/-- A decimal number. -/
def readDecimal : Reader Value := fun text => do
  let (negative, text) := readSign text
  let (whole, text) ← readWhole text
  let (fraction, text) ← readFraction text
  let (exponent, text) ← readExponent text
  if fraction.isEmpty && exponent.isNone then
    (integer? negative (digitsValue 10 whole)).map fun value => (value, text)
  else
    let shift := exponent.getD 0 - fraction.length
    if !negative && overflows (whole ++ fraction) shift then none else some (.float, text)

/-- An integer in another base, behind its mark. -/
def readBased (base : Nat) : Reader Value := fun text => do
  let (digits, text) ← readDigits base text
  (integer? false (digitsValue base digits)).map fun value => (value, text)

/-- Infinity or no number at all, with an optional sign. -/
def readSpecial : Reader Value := fun text =>
  let text := (readSign text).2
  ((Text.word? "inf" text).orElse fun _ => Text.word? "nan" text).map fun rest => (.float, rest)

/-! ### Dates and times -/

/-- Exactly `count` decimal digits. -/
def readFixed (count : Nat) : Reader Nat := fun text =>
  let digits := text.take count
  if digits.length = count && digits.all Char.isDigit then
    some (digitsValue 10 digits, text.drop count)
  else none

/-- Two digits between `low` and `high`. -/
def readPart (low high : Nat) : Reader Nat := fun text => do
  let (n, text) ← readFixed 2 text
  if low ≤ n ∧ n ≤ high then some (n, text) else none

/-- The number of days of a month. -/
def daysOf (year month : Nat) : Nat :=
  if month = 2 then
    if year % 4 = 0 ∧ (year % 100 ≠ 0 ∨ year % 400 = 0) then 29 else 28
  else if month = 4 ∨ month = 6 ∨ month = 9 ∨ month = 11 then 30
  else 31

/-- A date of the calendar; gives what follows it. -/
def skipDate? (text : List Char) : Option (List Char) := do
  let (year, text) ← readFixed 4 text
  let (_, text) ← Text.character '-' text
  let (month, text) ← readPart 1 12 text
  let (_, text) ← Text.character '-' text
  let (_, text) ← readPart 1 (daysOf year month) text
  return text

/-- A time of day with optional digits behind its seconds; gives what follows it. -/
def skipTime? (text : List Char) : Option (List Char) := do
  let (_, text) ← readPart 0 23 text
  let (_, text) ← Text.character ':' text
  let (_, text) ← readPart 0 59 text
  let (_, text) ← Text.character ':' text
  let (_, text) ← readPart 0 60 text
  match text with
  | '.' :: rest => if rest.head?.any Char.isDigit then some (rest.dropWhile Char.isDigit) else none
  | text => some text

/-- An offset; gives what follows it. -/
def skipOffset? : List Char → Option (List Char)
  | [] => none
  | c :: rest =>
    if c = 'Z' || c = 'z' then some rest
    else if c = '+' || c = '-' then do
      let (_, text) ← readPart 0 23 rest
      let (_, text) ← Text.character ':' text
      let (_, text) ← readPart 0 59 text
      return text
    else none

/-- The time and the offset behind a date, as far as there are any. -/
def skipTimeOfDate : List Char → List Char
  | [] => []
  | c :: rest =>
    if c = 'T' || c = 't' || c = ' ' then
      match skipTime? rest with
      | some text => (skipOffset? text).getD text
      | none => c :: rest
    else c :: rest

/-- A date, a time, or both. -/
def readMoment : Reader Value := fun text =>
  match skipDate? text with
  | some rest => some (.moment, skipTimeOfDate rest)
  | none => (skipTime? text).map fun rest => (.moment, rest)

/-- A number, a date or a time. -/
def readNumber : Reader Value := fun text =>
  match text with
  | '0' :: 'x' :: rest => readBased 16 rest
  | '0' :: 'o' :: rest => readBased 8 rest
  | '0' :: 'b' :: rest => readBased 2 rest
  | text => (readMoment text).orElse fun _ => (readSpecial text).orElse fun _ => readDecimal text

end Toml

end ZoneRelay
