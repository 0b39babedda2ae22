/-!
# TOML values and tables

A TOML text builds up a tree of tables. A table remembers **how it came to be**
(`ZoneRelay.Toml.Form`), because that decides what may still be added to it:

* a table under its own header, or one element of an array of tables, is *explicit*;
* one that only stands on the path of a header is *implied*: it may still get a header;
* one that only stands on the path of a dotted key is *dotted*: further dotted keys may add
  to it, a header may not name it;
* one written between braces is *inline* and closed.

A path is followed from a table down, and tables that are missing are made on the way
(`ZoneRelay.Toml.enter`); at an array of tables the path goes on in its last element.

What kind of number or date a value is matters only for integers, so a number with a
fraction and a date carry no value.
-/

namespace ZoneRelay

namespace Toml

/-- How a table came to be. -/
inductive Form where
  /-- Under a header of its own. -/
  | explicit
  /-- On the path of a header. -/
  | implied
  /-- On the path of a dotted key. -/
  | dotted
  /-- Between braces. -/
  | inline
  deriving DecidableEq, Repr

/-- A TOML value. -/
inductive Value where
  | text (s : String)
  | integer (n : Int)
  | float
  | boolean (b : Bool)
  | moment
  | list (items : List Value)
  /-- An array of tables, first element first. -/
  | tables (elements : List (List (String × Value)))
  | table (form : Form) (fields : List (String × Value))

/-- The contents of a table, in the order in which they were added. -/
abbrev Fields := List (String × Value)

namespace Fields

/-- The value of a key. -/
def get? (fields : Fields) (key : String) : Option Value :=
  (fields.find? fun field => field.1 == key).map (·.2)

/-- Puts the value of a key, in the place of an older one. -/
def put (fields : Fields) (key : String) (value : Value) : Fields :=
  if fields.any (·.1 == key) then
    fields.map fun field => if field.1 == key then (key, value) else field
  else fields ++ [(key, value)]

end Fields

/-- Whether the path of a dotted key, or else of a header, may lead through a table. -/
def Form.admits (byDottedKey : Bool) : Form → Bool
  | .explicit => !byDottedKey
  | .implied | .dotted => true
  | .inline => false

/-- Follows a path down from a table and changes the table at its end; `none` where it meets
something that is no table, or a table that it must not enter. -/
def enter (byDottedKey : Bool) (change : Form → Fields → Option Fields) :
    (path : List String) → Form → Fields → Option Fields
  | [], form, fields => change form fields
  | key :: path, _, fields =>
    match fields.get? key with
    | none =>
      let form := if byDottedKey then Form.dotted else Form.implied
      (enter byDottedKey change path form []).map fun inner => fields.put key (.table form inner)
    | some (.table form inner) =>
      if form.admits byDottedKey then
        (enter byDottedKey change path form inner).map fun inner =>
          fields.put key (.table form inner)
      else none
    | some (.tables elements) =>
      match elements.getLast? with
      | none => none
      | some last =>
        (enter byDottedKey change path .explicit last).map fun inner =>
          fields.put key (.tables (elements.dropLast ++ [inner]))
    | some _ => none

/-- A key with its dotted path in front, and its value. -/
structure Assignment where
  path : List String
  key : String
  value : Value

/-- Adds a key to the table it belongs to: a new key, below a dotted path only in a table
that dotted keys made. -/
def assign (fields : Fields) (a : Assignment) : Option Fields :=
  enter true
    (fun form inner =>
      if decide (form = .dotted) = a.path.isEmpty || inner.any (·.1 == a.key) then none
      else some (inner ++ [(a.key, a.value)]))
    a.path .explicit fields

/-- Adds keys one after another. -/
def assignAll (fields : Fields) (assignments : List Assignment) : Option Fields :=
  assignments.foldlM assign fields

/-! ### Taking values apart -/

namespace Value

/-- A natural number below a bound. -/
def below? (bound : Nat) : Value → Option Nat
  | integer n => if 0 ≤ n ∧ n.toNat < bound then some n.toNat else none
  | _ => none

/-- A text. -/
def text? : Value → Option String
  | text s => some s
  | _ => none

/-- A truth value. -/
def boolean? : Value → Option Bool
  | boolean b => some b
  | _ => none

/-- The items of a list, or the elements of an array of tables. -/
def items? : Value → Option (List Value)
  | list items => some items
  | tables elements => some (elements.map (table .explicit))
  | _ => none

/-- The contents of a table. -/
def fields? : Value → Option Fields
  | table _ fields => some fields
  | _ => none

/-- The values of a record with the given names: by name in a table, by position in a list,
where further items are ignored. -/
def record? (names : List String) (value : Value) : Option (List (Option Value)) :=
  match value.fields? with
  | some fields => some (names.map fields.get?)
  | none => value.items?.map fun items => (List.range names.length).map fun i => items[i]?

end Value

end Toml

end ZoneRelay
