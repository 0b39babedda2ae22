import ZoneRelay.Json.Quoted

/-!
# JSON values

The values that a JSON text spells, and how they are written. Numbers are told apart as
far as this library needs it: natural numbers below `2 ^ 64` written with digits alone, and
all others.

A **record** is an object in which each of the given names occurs exactly once – other
names may occur besides – or, shorter, a list with as many items in the order of the names
(`ZoneRelay.Json.Value.record?`).
-/

namespace ZoneRelay

namespace Json

/-- A JSON value. -/
inductive Value where
  | null
  | boolean (b : Bool)
  /-- A natural number below `2 ^ 64`. -/
  | natural (n : Nat)
  /-- Any other number. -/
  | number
  /-- A string, with its text if its pieces make one. -/
  | text (text : Option String)
  | list (items : List Value)
  /-- An object's fields in order, each with its name if its pieces make one. -/
  | object (fields : List (Option String × Value))

namespace Value

/-! ### Taking values apart -/

/-- A natural number below a bound. -/
def below? (bound : Nat) : Value → Option Nat
  | natural n => if n < bound then some n else none
  | _ => none

/-- The text of a string. -/
def text? : Value → Option String
  | text s => s
  | _ => none

/-- The items of a list. -/
def list? : Value → Option (List Value)
  | list items => some items
  | _ => none

/-- The value of a name that occurs exactly once. -/
def single? (fields : List (Option String × Value)) (name : String) : Option Value :=
  match fields.filter fun field => field.1 == some name with
  | [field] => some field.2
  | _ => none

/-- The values of a record with the given names, in their order. -/
def record? (names : List String) : Value → Option (List Value)
  | object fields =>
    if fields.all (·.1.isSome) then names.mapM (single? fields) else none
  | list items => if items.length = names.length then some items else none
  | _ => none

end Value

/-! ### Writing -/

mutual

/-- A value as a compact JSON text; a number or a string without a value as `null`. -/
def write : Value → String
  | .null => "null"
  | .boolean b => if b then "true" else "false"
  | .natural n => toString n
  | .number => "null"
  | .text (some s) => quoted s
  | .text none => "null"
  | .list items => "[" ++ writeItems items ++ "]"
  | .object fields => "\x7b" ++ writeFields fields ++ "\x7d"

/-- Values with commas between them. -/
def writeItems : List Value → String
  | [] => ""
  | [item] => write item
  | item :: rest => write item ++ "," ++ writeItems rest

/-- Fields with commas between them. -/
def writeFields : List (Option String × Value) → String
  | [] => ""
  | [(name, value)] => quoted (name.getD "") ++ ":" ++ write value
  | (name, value) :: rest =>
    quoted (name.getD "") ++ ":" ++ write value ++ "," ++ writeFields rest

end

end Json

end ZoneRelay
