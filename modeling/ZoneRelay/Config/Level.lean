import ZoneRelay.Text.Numeral

/-!
# Log levels

A level is spelled by its name in any case, or by a number from one, the least verbose, to
five.
-/

namespace ZoneRelay

namespace Config

/-- How much is logged. -/
inductive Level where
  | trace
  | debug
  | info
  | warn
  | error
  deriving DecidableEq, Repr

namespace Level

/-- The name of a level. -/
def name : Level → String
  | trace => "trace"
  | debug => "debug"
  | info => "info"
  | warn => "warn"
  | error => "error"

/-- The levels in the order of their numbers, from one on. -/
def numbered : List Level := [error, warn, info, debug, trace]

/-- The level with a name, in any case. -/
def ofName? (text : String) : Option Level :=
  numbered.find? fun level => level.name == text.map Char.toLower

/-- The level that a text spells. -/
def ofText? (text : String) : Option Level :=
  match Text.readUnsigned UInt64.size text with
  | .ok (n + 1) => numbered[n]?
  | .ok 0 => none
  | .error _ => ofName? text

end Level

end Config

end ZoneRelay
