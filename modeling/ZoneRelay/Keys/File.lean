import ZoneRelay.Keys
import ZoneRelay.Toml.Reader

/-!
# Key files

A key file is a TOML text with an array `keys` of tables: a character's number, its key as
a text, and whether it logs in for the first time, which it does not unless that is said. A
later table for the same character counts.
-/

namespace ZoneRelay

namespace KeyStore

open Toml (Value)

/-- The character and the key material of a table. -/
def entry? (value : Value) : Option (UInt32 × KeyMaterial) := do
  match ← value.record? ["character_id", "key", "first_login"] with
  | [some character, some key, first] =>
    let character := (← character.below? UInt32.size).toUInt32
    let firstLogin ← match first with
      | none => some false
      | some first => first.boolean?
    return (character, ⟨.ofText (← key.text?), firstLogin⟩)
  | _ => none

/-- The entries of a key file. -/
def entries? (fields : Toml.Fields) : Option (List (UInt32 × KeyMaterial)) :=
  match fields.get? "keys" with
  | none => some []
  | some value => value.items?.bind fun items => items.mapM entry?

/-- The key store that a text spells. -/
def ofText (text : String) : Except Fault KeyStore :=
  match Toml.read? text with
  | none => .error (.settings (.malformedKeys "not a TOML text"))
  | some value =>
    match (value.fields?).bind entries? with
    | none => .error (.settings (.malformedKeys "not a list of keys"))
    | some entries =>
      .ok (entries.foldl (fun store entry => store.insert entry.1 entry.2) empty)

end KeyStore

end ZoneRelay
