import ZoneRelay.Text.Reader

/-!
# TOML strings

Four ways to quote a text. A **basic** string stands between double quotes and knows
escapes; a **literal** string stands between single quotes and knows none. Both also come
with three quotes on either side, and then may run over several lines:

* a line break just behind the opening quotes is left out, and every other one counts as a
  single line feed;
* one or two quotes in a row belong to the text, also right before the closing ones;
* in the basic form a backslash at the end of a line leaves out that line break and all
  blanks and line breaks behind it.

No form holds control characters other than the tab.
-/

namespace ZoneRelay

namespace Toml

open Text (Reader)

/-- Whether a character is a space or a tab. -/
def isBlank (c : Char) : Bool := c == ' ' || c == '\t'

/-- Whether a character is printable or a tab. -/
def isPlain (c : Char) : Bool := c == '\t' || (0x20 ≤ c.toNat && c.toNat ≠ 0x7F)

/-- What follows a line break at the front, if there is one. -/
def skipBreak : List Char → List Char
  | '\n' :: rest => rest
  | '\r' :: '\n' :: rest => rest
  | text => text

/-! ### Escapes -/

/-- The value of a hexadecimal digit. -/
def hexValue? (c : Char) : Option Nat :=
  if c.isDigit then some (c.toNat - '0'.toNat)
  else if 'a' ≤ c ∧ c ≤ 'f' then some (c.toNat - 'a'.toNat + 10)
  else if 'A' ≤ c ∧ c ≤ 'F' then some (c.toNat - 'A'.toNat + 10)
  else none

/-- The character whose number is given in hexadecimal. -/
def hexCharacter? (digits : List Char) : Option Char := do
  let values ← digits.mapM hexValue?
  let n := values.foldl (fun n d => n * 16 + d) 0
  if n.isValidChar then some (Char.ofNat n) else none

/-- The character of an escape with one letter. -/
def shortEscape? : Char → Option Char
  | 'b' => some '\x08'
  | 't' => some '\t'
  | 'n' => some '\n'
  | 'f' => some '\x0c'
  | 'r' => some '\r'
  | '"' => some '"'
  | '\\' => some '\\'
  | _ => none

/-- Where the reader of a basic string stands: in plain text, or in an escape by number with
digits still owed. -/
inductive Escape where
  | none
  | letter
  | digits (owed : Nat) (read : List Char)

/-- A step through the characters of a basic string after a backslash: the character that is
complete, if one is, and the state after it. -/
def Escape.step (c : Char) : Escape → Option (Option Char × Escape)
  | .none => if c = '\\' then some (.none, .letter) else some (c, .none)
  | .letter =>
    if c = 'u' then some (.none, .digits 4 [])
    else if c = 'U' then some (.none, .digits 8 [])
    else (shortEscape? c).map fun c => (some c, .none)
  | .digits owed read =>
    if (hexValue? c).isNone then Option.none
    else if owed ≤ 1 then (hexCharacter? (read ++ [c])).map fun c => (some c, .none)
    else some (.none, .digits (owed - 1) (read ++ [c]))

/-! ### On one line -/

/-- A basic string behind its opening quote. -/
def readBasicFrom : Escape → Reader (List Char)
  | _, [] => none
  | escape, c :: rest =>
    match escape, c with
    | .none, '"' => some ([], rest)
    | escape, c =>
      if !isPlain c then none
      else
        match escape.step c with
        | none => none
        | some (done, escape) =>
          (readBasicFrom escape rest).map fun r => (done.toList ++ r.1, r.2)

/-- A literal string behind its opening quote. -/
def readLiteral : Reader (List Char)
  | [] => none
  | c :: rest =>
    if c = '\'' then some ([], rest)
    else if isPlain c then (readLiteral rest).map fun r => (c :: r.1, r.2)
    else none

/-! ### On several lines -/

/-- At three quotes in a row: the one or two quotes that still belong to the text, and what
follows the string. -/
def closing (quote : Char) (behind : List Char) : List Char × List Char :=
  let extra := (behind.takeWhile (· == quote)).take 2
  (extra, behind.drop extra.length)

/-- A literal string on several lines behind its opening quotes. -/
def readLiteralLines : Reader (List Char)
  | [] => none
  | c :: rest =>
    if c = '\'' && rest.take 2 = ['\'', '\''] then some (closing '\'' (rest.drop 2))
    else if c = '\r' then
      if rest.head? = some '\n' then readLiteralLines rest else none
    else if isPlain c || c = '\n' then (readLiteralLines rest).map fun r => (c :: r.1, r.2)
    else none

/-- Whether only blanks stand before the next line break. -/
def endsLine (text : List Char) : Bool :=
  match text.dropWhile isBlank with
  | '\n' :: _ => true
  | '\r' :: '\n' :: _ => true
  | _ => false

/-- A basic string on several lines behind its opening quotes. While `trimming`, blanks and
line breaks are left out. -/
def readBasicLines : (trimming : Bool) → Escape → Reader (List Char)
  | _, _, [] => none
  | trimming, .none, c :: rest =>
    if trimming && (isBlank c || c = '\n') then readBasicLines true .none rest
    else if c = '\r' then
      if rest.head? = some '\n' then readBasicLines trimming .none rest else none
    else if c = '"' && rest.take 2 = ['"', '"'] then some (closing '"' (rest.drop 2))
    else if c = '\\' && endsLine rest then readBasicLines true .none rest
    else if c = '\\' then readBasicLines false .letter rest
    else if isPlain c || c = '\n' then
      (readBasicLines false .none rest).map fun r => (c :: r.1, r.2)
    else none
  | _, escape, c :: rest =>
    match escape.step c with
    | none => none
    | some (done, escape) =>
      (readBasicLines false escape rest).map fun r => (done.toList ++ r.1, r.2)

/-! ### Any string -/

/-- A string on one line, as keys may be. -/
def readLine : Reader String
  | '"' :: rest => (readBasicFrom .none rest).map fun r => (String.ofList r.1, r.2)
  | '\'' :: rest => (readLiteral rest).map fun r => (String.ofList r.1, r.2)
  | _ => none

/-- A string in any of the four forms. -/
def readString : Reader String
  | '"' :: '"' :: '"' :: rest =>
    (readBasicLines false .none (skipBreak rest)).map fun r => (String.ofList r.1, r.2)
  | '\'' :: '\'' :: '\'' :: rest =>
    (readLiteralLines (skipBreak rest)).map fun r => (String.ofList r.1, r.2)
  | text => readLine text

end Toml

end ZoneRelay
