/-!
# Writing TOML strings

A text is written in the first of four forms that shows it without an escape: on one line
between double quotes, on one line between single quotes, on several lines between three
double quotes, on several lines between three single quotes. If there is none it is written
between double quotes with escapes, on several lines if it holds a line break. What decides
is gathered in one pass over the text (`ZoneRelay.Toml.Traits`).
-/

namespace ZoneRelay

namespace Toml

/-- What decides how a text is written. -/
structure Traits where
  /-- The most single quotes in a row. -/
  singles : Nat
  /-- The most double quotes in a row. -/
  doubles : Nat
  backslash : Bool
  lineBreak : Bool
  /-- Whether there is a control character other than tab and line feed. -/
  control : Bool
  deriving DecidableEq, Repr

/-- The length of the longest run of a character, where `run` stand in front. -/
def longestRun (quote : Char) : (run : Nat) → List Char → Nat
  | run, [] => run
  | run, c :: rest =>
    if c = quote then longestRun quote (run + 1) rest else max run (longestRun quote 0 rest)

/-- Whether a character is a control character other than tab and line feed. -/
def isControl (c : Char) : Bool := (c.toNat < 0x20 || c.toNat = 0x7F) && c ≠ '\t' && c ≠ '\n'

/-- The traits of a text. -/
def Traits.ofText (text : List Char) : Traits where
  singles := longestRun '\'' 0 text
  doubles := longestRun '"' 0 text
  backslash := text.contains '\\'
  lineBreak := text.contains '\n'
  control := text.any isControl

/-- A character of a string with escapes; a line feed stays if the string has `lines`. -/
def escapedCharacter (lines : Bool) (c : Char) : List Char :=
  match c with
  | '\x08' => ['\\', 'b']
  | '\t' => ['\\', 't']
  | '\n' => if lines then ['\n'] else ['\\', 'n']
  | '\x0c' => ['\\', 'f']
  | '\r' => ['\\', 'r']
  | '\\' => ['\\', '\\']
  | c =>
    if c.toNat < 0x20 || c.toNat = 0x7F then
      ['\\', 'u', '0', '0', (Nat.digitChar (c.toNat / 16)).toUpper,
        (Nat.digitChar (c.toNat % 16)).toUpper]
    else [c]

/-- A text with escapes. At most `limit` double quotes in a row stay as they are; `run` stand
in front. -/
def escapedText (lines : Bool) (limit : Nat) : (run : Nat) → List Char → List Char
  | _, [] => []
  | run, c :: rest =>
    if c = '"' then
      if limit ≤ run then '\\' :: '"' :: escapedText lines limit 0 rest
      else '"' :: escapedText lines limit (run + 1) rest
    else escapedCharacter lines c ++ escapedText lines limit 0 rest

/-- A text between double quotes on one line. -/
def basic (text : List Char) : List Char := '"' :: escapedText false 0 0 text ++ ['"']

/-- A text between single quotes on one line. -/
def literal (text : List Char) : List Char := '\'' :: text ++ ['\'']

/-- A text between three quotes, behind a line break if it holds one itself. -/
def lines (quote : Char) (lineBreak : Bool) (text : List Char) : List Char :=
  let quotes := List.replicate 3 quote
  quotes ++ (if lineBreak then ['\n'] else []) ++ text ++ quotes

/-- A text between three double quotes. -/
def basicLines (lineBreak : Bool) (text : List Char) : List Char :=
  lines '"' lineBreak (escapedText true 2 0 text)

/-- A text as a TOML string. -/
def quoted (text : String) : String :=
  let text := text.toList
  let t := Traits.ofText text
  String.ofList <|
    if !t.control && !t.backslash && t.doubles = 0 && !t.lineBreak then basic text
    else if !t.control && t.singles = 0 && !t.lineBreak then literal text
    else if !t.control && !t.backslash && t.doubles ≤ 2 then basicLines t.lineBreak text
    else if !t.control && t.singles ≤ 2 then lines '\'' t.lineBreak text
    else if t.lineBreak then basicLines true text
    else basic text

end Toml

end ZoneRelay
