import ZoneRelay.Json.Value

/-!
# Reading JSON

A reader of JSON texts in bytes. Between tokens stand blanks – space, tab, line feed and
carriage return – and nothing else. A number has no zero in front of other digits, and at
least one digit before and behind its point and in its exponent; a list or an object has no
comma at its end. Behind the value only blanks may follow.

Nesting is bounded by the length of the text: every value takes a byte, so twice as many
rounds as there are bytes suffice (`ZoneRelay.Json.read?`).
-/

namespace ZoneRelay

namespace Json

/-- Whether a byte is a blank. -/
def isBlank (b : UInt8) : Bool := b == 0x20 || b == 0x09 || b == 0x0A || b == 0x0D

/-- What follows the blanks at the front. -/
def skipBlanks (data : Bytes) : Bytes := data.dropWhile isBlank

/-- Whether a byte is a decimal digit. -/
def isDigit (b : UInt8) : Bool := ascii '0' ≤ b && b ≤ ascii '9'

/-- What follows a word at the front. -/
def skipWord? (word : String) (data : Bytes) : Option Bytes :=
  let word := Utf8.encode word
  if word.isPrefixOf data then some (data.drop word.length) else none

/-! ### Numbers -/

/-- The digits at the front, at least one, and what follows them. -/
def digits? (data : Bytes) : Option (Bytes × Bytes) :=
  let digits := data.takeWhile isDigit
  if digits.isEmpty then none else some (digits, data.drop digits.length)

/-- The digits at the front without a zero in front of others. -/
def whole? (data : Bytes) : Option (Bytes × Bytes) := do
  let (digits, rest) ← digits? data
  if digits.head? = some (ascii '0') ∧ 1 < digits.length then none else some (digits, rest)

/-- What follows a fraction, if there is one at the front; none where it lacks digits. -/
def skipFraction? : Bytes → Option Bytes
  | b :: rest => if b = ascii '.' then (digits? rest).map (·.2) else some (b :: rest)
  | [] => some []

/-- What follows a sign, if there is one at the front. -/
def skipSign : Bytes → Bytes
  | b :: rest => if b = ascii '+' ∨ b = ascii '-' then rest else b :: rest
  | [] => []

/-- What follows an exponent, if there is one at the front; none where it lacks digits. -/
def skipExponent? : Bytes → Option Bytes
  | b :: rest =>
    if b = ascii 'e' ∨ b = ascii 'E' then (digits? (skipSign rest)).map (·.2)
    else some (b :: rest)
  | [] => some []

/-- The number that decimal digits spell. -/
def decimal (digits : Bytes) : Nat :=
  digits.foldl (fun n b => n * 10 + (b - ascii '0').toNat) 0

/-- A number without a sign. -/
def readUnsigned? (data : Bytes) : Option (Value × Bytes) := do
  let (digits, rest) ← whole? data
  let behind ← (skipFraction? rest).bind skipExponent?
  let n := decimal digits
  return (if behind = rest ∧ n < UInt64.size then .natural n else .number, behind)

/-- A number. -/
def readNumber? : Bytes → Option (Value × Bytes)
  | [] => none
  | b :: rest =>
    if b = ascii '-' then (readUnsigned? rest).map fun r => (.number, r.2)
    else readUnsigned? (b :: rest)

/-! ### Values -/

/-- A number, a string or a word. -/
def readScalar? : Bytes → Option (Value × Bytes)
  | [] => none
  | b :: rest =>
    if b = ascii '"' then (readPieces rest).map fun r => (.text (pieceText? r.1), r.2)
    else if b = ascii 'n' then (skipWord? "null" (b :: rest)).map fun r => (.null, r)
    else if b = ascii 't' then (skipWord? "true" (b :: rest)).map fun r => (.boolean true, r)
    else if b = ascii 'f' then (skipWord? "false" (b :: rest)).map fun r => (.boolean false, r)
    else readNumber? (b :: rest)

/-- The name of a field and the colon behind it. -/
def readName? : Bytes → Option (Option String × Bytes)
  | [] => none
  | b :: rest =>
    if b ≠ ascii '"' then none
    else do
      let (pieces, rest) ← readPieces rest
      match skipBlanks rest with
      | c :: rest => if c = ascii ':' then some (pieceText? pieces, rest) else none
      | [] => none

mutual

/-- A value behind blanks. -/
def readValue? : (fuel : Nat) → Bytes → Option (Value × Bytes)
  | 0, _ => none
  | fuel + 1, data =>
    match skipBlanks data with
    | [] => none
    | b :: rest =>
      if b = ascii '[' then
        match skipBlanks rest with
        | [] => none
        | c :: tail =>
          if c = ascii ']' then some (.list [], tail)
          else (readItems? fuel (c :: tail)).map fun r => (.list r.1, r.2)
      else if b = ascii '\x7b' then
        match skipBlanks rest with
        | [] => none
        | c :: tail =>
          if c = ascii '\x7d' then some (.object [], tail)
          else (readFields? fuel (c :: tail)).map fun r => (.object r.1, r.2)
      else readScalar? (b :: rest)

/-- The items of a list, at least one, and its closing bracket. -/
def readItems? : (fuel : Nat) → Bytes → Option (List Value × Bytes)
  | 0, _ => none
  | fuel + 1, data =>
    match readValue? fuel data with
    | none => none
    | some (item, rest) =>
      match skipBlanks rest with
      | [] => none
      | b :: rest =>
        if b = ascii ']' then some ([item], rest)
        else if b = ascii ',' then
          (readItems? fuel rest).map fun r => (item :: r.1, r.2)
        else none

/-- The fields of an object, at least one, and its closing brace. -/
def readFields? : (fuel : Nat) → Bytes → Option (List (Option String × Value) × Bytes)
  | 0, _ => none
  | fuel + 1, data =>
    match readName? (skipBlanks data) with
    | none => none
    | some (name, rest) =>
      match readValue? fuel rest with
      | none => none
      | some (value, rest) =>
        match skipBlanks rest with
        | [] => none
        | b :: rest =>
          if b = ascii '\x7d' then some ([(name, value)], rest)
          else if b = ascii ',' then
            (readFields? fuel rest).map fun r => ((name, value) :: r.1, r.2)
          else none

end

/-- The value that a JSON text spells, if it is one. -/
def read? (data : Bytes) : Option Value :=
  match readValue? (2 * data.length + 2) data with
  | some (value, rest) => if (skipBlanks rest).isEmpty then some value else none
  | none => none

end Json

end ZoneRelay
