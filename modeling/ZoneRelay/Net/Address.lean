import ZoneRelay.Text.Numeral
import ZoneRelay.Text.Reader

/-!
# Socket addresses

A client is known by the address its datagrams come from: an IPv4 or IPv6 address and a
port, and for IPv6 a scope.

* **Writing** (`ZoneRelay.Address.text`): `192.0.2.1:80`, `[2001:db8::1]:80`,
  `[fe80::1%3]:80`. In an IPv6 address the first of the longest runs of at least two zero
  groups is written `::`, and an address that embeds an IPv4 address behind
  `::ffff:` shows it dotted.
* **Reading** (`ZoneRelay.Address.ofText?`): the same forms and their usual spellings – up
  to four hexadecimal digits a group in either case, an IPv4 address in place of the last
  two groups, zeros in front of a port or a scope, but none in front of an IPv4 number.
  `::` stands for at least one group.
-/

namespace ZoneRelay

/-- An IPv4 or IPv6 socket address. -/
inductive Address where
  /-- An IPv4 address, given by its four numbers, and a port. -/
  | v4 (a b c d : UInt8) (port : UInt16)
  /-- An IPv6 address, given by its eight groups, a scope and a port. -/
  | v6 (groups : Vector UInt16 8) (scope : UInt32) (port : UInt16)
  deriving DecidableEq

namespace Address

open Text (Reader character)

/-! ### Writing -/

/-- Four numbers with points between them. -/
def dotted (a b c d : UInt8) : String :=
  toString a.toNat ++ "." ++ toString b.toNat ++ "." ++ toString c.toNat ++ "." ++ toString d.toNat

/-- Groups in hexadecimal with colons between them. -/
def colons (groups : List UInt16) : String :=
  String.intercalate ":" (groups.map fun g => String.ofList (Nat.toDigits 16 g.toNat))

/-- A run of zero groups: where it starts and how long it is. -/
structure Run where
  start : Nat
  length : Nat

/-- The first of the longest runs of zeros, read from position `i` on, where `current` is
the run that ends just before `i`. -/
def longestRun (best current : Run) (i : Nat) : List UInt16 → Run
  | [] => best
  | g :: rest =>
    if g = 0 then
      let current := if current.length = 0 then ⟨i, 1⟩ else ⟨current.start, current.length + 1⟩
      longestRun (if best.length < current.length then current else best) current (i + 1) rest
    else longestRun best ⟨0, 0⟩ (i + 1) rest

/-- The text of an IPv6 address. -/
def textV6 (groups : Vector UInt16 8) : String :=
  match groups.toList with
  | [0, 0, 0, 0, 0, 0xFFFF, x, y] =>
    "::ffff:" ++ dotted (x >>> 8).toUInt8 x.toUInt8 (y >>> 8).toUInt8 y.toUInt8
  | groups =>
    let run := longestRun ⟨0, 0⟩ ⟨0, 0⟩ 0 groups
    if 1 < run.length then
      colons (groups.take run.start) ++ "::" ++ colons (groups.drop (run.start + run.length))
    else colons groups

/-- The text of a socket address. -/
def text : Address → String
  | .v4 a b c d port => dotted a b c d ++ ":" ++ toString port.toNat
  | .v6 groups scope port =>
    let zone := if scope = 0 then "" else "%" ++ toString scope.toNat
    "[" ++ textV6 groups ++ zone ++ "]:" ++ toString port.toNat

/-- The numbers that order addresses: IPv4 before IPv6, then address, port and scope. -/
def rank : Address → List Nat
  | .v4 a b c d port => [4, a.toNat, b.toNat, c.toNat, d.toNat, port.toNat]
  | .v6 groups scope port => 6 :: groups.toList.map (·.toNat) ++ [port.toNat, scope.toNat]

/-! ### Reading -/

/-- The value of a digit in base 10 or 16. -/
def digitValue? (base : Nat) (c : Char) : Option Nat :=
  let value :=
    if c.isDigit then some (c.toNat - '0'.toNat)
    else if 'a' ≤ c ∧ c ≤ 'f' then some (c.toNat - 'a'.toNat + 10)
    else if 'A' ≤ c ∧ c ≤ 'F' then some (c.toNat - 'A'.toNat + 10)
    else none
  value.filter (· < base)

/-- All digits at the front of a text, as their values. -/
def digits (base : Nat) : List Char → List Nat × List Char
  | [] => ([], [])
  | c :: rest =>
    match digitValue? base c with
    | none => ([], c :: rest)
    | some d => (d :: (digits base rest).1, (digits base rest).2)

/-- A number below `bound`, of at most `width` digits if a width is given, without a zero
in front of other digits unless `zeros` allows it. -/
def number (base bound : Nat) (width : Option Nat) (zeros : Bool) : Reader Nat := fun text =>
  let (ds, rest) := digits base text
  let value := ds.foldl (fun acc d => acc * base + d) 0
  if ds.isEmpty || width.any (· < ds.length) then none
  else if !zeros && ds.head? == some 0 && 1 < ds.length then none
  else if bound ≤ value then none
  else some (value, rest)

/-- The dotted form of an IPv4 address, as its two halves. -/
def readV4 : Reader (UInt8 × UInt8 × UInt8 × UInt8) := fun text => do
  let part := number 10 256 (some 3) false
  let (a, text) ← part text
  let (_, text) ← character '.' text
  let (b, text) ← part text
  let (_, text) ← character '.' text
  let (c, text) ← part text
  let (_, text) ← character '.' text
  let (d, text) ← part text
  some ((a.toUInt8, b.toUInt8, c.toUInt8, d.toUInt8), text)

/-- What precedes the group at a position: nothing at the first, then a colon. -/
def separator (first : Bool) : Reader Unit := fun text =>
  if first then some ((), text) else character ':' text

/-- Groups as far as they go, at most `room` of them, and whether the last two of them
were written as an IPv4 address. -/
def readGroups : (room : Nat) → (first : Bool) → List Char → List UInt16 × Bool × List Char
  | 0, _, text => ([], false, text)
  | room + 1, first, text =>
    let embedded := if room = 0 then none else (separator first text).bind fun r => readV4 r.2
    match embedded with
    | some ((a, b, c, d), rest) =>
      ([a.toUInt16 <<< 8 ||| b.toUInt16, c.toUInt16 <<< 8 ||| d.toUInt16], true, rest)
    | none =>
      match (separator first text).bind fun r => number 16 65536 (some 4) true r.2 with
      | none => ([], false, text)
      | some (g, rest) =>
        let (gs, dotted, rest) := readGroups room false rest
        (g.toUInt16 :: gs, dotted, rest)

/-- The eight groups of a list of at most eight with zeros for those left out between
`front` and `back`. -/
def spread (front back : List UInt16) : Vector UInt16 8 :=
  let filled := front ++ List.replicate (8 - front.length - back.length) 0 ++ back
  Vector.ofFn fun i => filled.getD i 0

/-- An IPv6 address: eight groups, or fewer around a `::`. -/
def readV6 : Reader (Vector UInt16 8) := fun text =>
  let (front, dotted, rest) := readGroups 8 true text
  if front.length = 8 then some (spread front [], rest)
  else if dotted then none
  else do
    let (_, rest) ← character ':' rest
    let (_, rest) ← character ':' rest
    let (back, _, rest) := readGroups (7 - front.length) true rest
    some (spread front back, rest)

/-- A colon and a port. -/
def readPort : Reader UInt16 := fun text => do
  let (_, text) ← character ':' text
  let (port, text) ← number 10 65536 none true text
  some (port.toUInt16, text)

/-- A scope, zero if there is none. -/
def readScope : Reader UInt32 := fun text =>
  match (character '%' text).bind fun r => number 10 4294967296 none true r.2 with
  | some (scope, rest) => some (scope.toUInt32, rest)
  | none => some (0, text)

/-- An IPv4 socket address. -/
def readSocketV4 : Reader Address := fun text => do
  let ((a, b, c, d), text) ← readV4 text
  let (port, text) ← readPort text
  some (.v4 a b c d port, text)

/-- An IPv6 socket address. -/
def readSocketV6 : Reader Address := fun text => do
  let (_, text) ← character '[' text
  let (groups, text) ← readV6 text
  let (scope, text) ← readScope text
  let (_, text) ← character ']' text
  let (port, text) ← readPort text
  some (.v6 groups scope port, text)

/-- The socket address a text spells, if it spells one and nothing else. -/
def ofText? (text : String) : Option Address :=
  match (readSocketV4 text.toList).orElse fun _ => readSocketV6 text.toList with
  | some (address, []) => some address
  | _ => none

end Address

end ZoneRelay
