import ZoneRelay.Text.Utf8

/-!
# Quoted strings

A JSON string between its quotes, in bytes. It is a sequence of **pieces**: bytes that
stand for themselves, and UTF-16 units written as `\u` and four hexadecimal digits; the
two-character escapes stand for a byte. Bytes below `0x20` have to be escaped.

A string is read in two steps. `ZoneRelay.Json.readPieces` finds its end and accepts any
pieces; `ZoneRelay.Json.pieceText?` makes a text of them and fails if a unit is half a
surrogate pair without the other half, or if the bytes are no UTF-8. A value that is only
skipped takes the first step alone.
-/

namespace ZoneRelay

namespace Json

/-- The byte of an ASCII character. -/
def ascii (c : Char) : UInt8 := c.toNat.toUInt8

/-- What stands at one place of a string. -/
inductive Piece where
  /-- A byte of the text. -/
  | byte (b : UInt8)
  /-- A UTF-16 unit. -/
  | unit (u : Nat)
  deriving DecidableEq, Repr

/-! ### Reading -/

/-- The value of a hexadecimal digit. -/
def hexValue? (b : UInt8) : Option Nat :=
  if ascii '0' ≤ b ∧ b ≤ ascii '9' then some (b - ascii '0').toNat
  else if ascii 'a' ≤ b ∧ b ≤ ascii 'f' then some ((b - ascii 'a').toNat + 10)
  else if ascii 'A' ≤ b ∧ b ≤ ascii 'F' then some ((b - ascii 'A').toNat + 10)
  else none

/-- The unit that four hexadecimal digits spell. -/
def hexUnit? (a b c d : UInt8) : Option Nat := do
  let a ← hexValue? a
  let b ← hexValue? b
  let c ← hexValue? c
  let d ← hexValue? d
  return ((a * 16 + b) * 16 + c) * 16 + d

/-- The two-character escapes and their bytes. -/
def shortEscapes : List (Char × UInt8) :=
  [('"', ascii '"'), ('\\', ascii '\\'), ('/', ascii '/'), ('b', 0x08), ('f', 0x0C),
    ('n', 0x0A), ('r', 0x0D), ('t', 0x09)]

/-- The byte that a two-character escape stands for. -/
def shortEscape? (b : UInt8) : Option UInt8 :=
  (shortEscapes.find? fun escape => ascii escape.1 == b).map (·.2)

/-- The pieces of a string up to its closing quote, and what follows it. -/
def readPieces : Bytes → Option (List Piece × Bytes)
  | [] => none
  | b :: rest =>
    if b = ascii '"' then some ([], rest)
    else if b < 0x20 then none
    else if b ≠ ascii '\\' then (readPieces rest).map fun r => (.byte b :: r.1, r.2)
    else
      match rest with
      | [] => none
      | e :: rest =>
        if e = ascii 'u' then
          match rest with
          | h₁ :: h₂ :: h₃ :: h₄ :: rest =>
            match hexUnit? h₁ h₂ h₃ h₄ with
            | none => none
            | some u => (readPieces rest).map fun r => (.unit u :: r.1, r.2)
          | _ => none
        else
          match shortEscape? e with
          | none => none
          | some byte => (readPieces rest).map fun r => (.byte byte :: r.1, r.2)

/-- Whether a unit is the first half of a surrogate pair. -/
def isHigh (u : Nat) : Bool := 0xD800 ≤ u && u < 0xDC00

/-- Whether a unit is the second half of a surrogate pair. -/
def isLow (u : Nat) : Bool := 0xDC00 ≤ u && u < 0xE000

/-- The bytes of pieces. A first half of a pair that was just read is `pending`. -/
def pieceBytes? : (pending : Option Nat) → List Piece → Option Bytes
  | none, [] => some []
  | some _, [] => none
  | none, .byte b :: rest => (pieceBytes? none rest).map (b :: ·)
  | some _, .byte _ :: _ => none
  | none, .unit u :: rest =>
    if isHigh u then pieceBytes? (some u) rest
    else if isLow u then none
    else (pieceBytes? none rest).map (String.utf8EncodeChar (Char.ofNat u) ++ ·)
  | some high, .unit u :: rest =>
    if isLow u then
      let scalar := 0x10000 + (high - 0xD800) * 0x400 + (u - 0xDC00)
      (pieceBytes? none rest).map (String.utf8EncodeChar (Char.ofNat scalar) ++ ·)
    else none

/-- The text that pieces make, if they make one. -/
def pieceText? (pieces : List Piece) : Option String :=
  (pieceBytes? none pieces).bind Utf8.decode?

/-! ### Writing -/

/-- A character of a string as it is written: quote, backslash and control characters are
escaped, the latter by `\u` where they have no short escape. -/
def escaped (c : Char) : List Char :=
  match c with
  | '"' => ['\\', '"']
  | '\\' => ['\\', '\\']
  | '\x08' => ['\\', 'b']
  | '\x0c' => ['\\', 'f']
  | '\n' => ['\\', 'n']
  | '\r' => ['\\', 'r']
  | '\t' => ['\\', 't']
  | c =>
    if c.toNat < 0x20 then
      ['\\', 'u', '0', '0', Nat.digitChar (c.toNat / 16), Nat.digitChar (c.toNat % 16)]
    else [c]

/-- A text between quotes. -/
def quoted (text : String) : String :=
  String.ofList ('"' :: text.toList.flatMap escaped ++ ['"'])

end Json

end ZoneRelay
