import ZoneRelay.Cipher.Key
import ZoneRelay.Fault

/-!
# Keys of characters

When a character logs in the relay asks for its **key material**: the session key, and
whether this is the character's first login. Where the material comes from is open
(`ZoneRelay.KeyProvider`); a store that holds it in memory is `ZoneRelay.KeyStore`.

A key may be **adjusted** before a session starts with it. The adjustment that can be
configured adds a number to one byte of the key on a first login
(`ZoneRelay.KeyAdjustment.addOnFirstLogin`).
-/

namespace ZoneRelay

/-- What is known of a character's key. -/
structure KeyMaterial where
  key : Cipher.Key
  firstLogin : Bool
  deriving DecidableEq

/-- Anything that gives the key material of a character, or says why it cannot. -/
abbrev KeyProvider := UInt32 → Except Fault KeyMaterial

/-- The key that a session starts with, given the material of its character. -/
abbrev KeyAdjustment := KeyMaterial → Cipher.Key

namespace KeyAdjustment

/-- Every key as it is. -/
def none : KeyAdjustment := KeyMaterial.key

/-- On a first login `delta` is added to the byte at `index`. -/
def addOnFirstLogin (index : Nat) (delta : UInt8) : KeyAdjustment := fun material =>
  if material.firstLogin then material.key.addAt index delta else material.key

end KeyAdjustment

/-- The key material of some characters, each at most once. -/
structure KeyStore where
  entries : List (UInt32 × KeyMaterial)

namespace KeyStore

/-- Nobody's key. -/
def empty : KeyStore := ⟨[]⟩

/-- The key material of a character. -/
def get? (store : KeyStore) (character : UInt32) : Option KeyMaterial :=
  (store.entries.find? fun entry => entry.1 == character).map (·.2)

/-- Removes the key material of a character. -/
def remove (store : KeyStore) (character : UInt32) : KeyStore :=
  ⟨store.entries.filter fun entry => entry.1 != character⟩

/-- Puts the key material of a character, in place of what was there. -/
def insert (store : KeyStore) (character : UInt32) (material : KeyMaterial) : KeyStore :=
  ⟨(character, material) :: (store.remove character).entries⟩

/-- The number of characters. -/
def size (store : KeyStore) : Nat := store.entries.length

/-- The store as a source of key material. -/
def provider (store : KeyStore) : KeyProvider := fun character =>
  match store.get? character with
  | some material => .ok material
  | none => .error (.keys (.unknownCharacter character))

/-- What was put is found. -/
@[simp] theorem get?_insert_self (store : KeyStore) (character : UInt32)
    (material : KeyMaterial) :
    (store.insert character material).get? character = some material := by
  simp [get?, insert]

end KeyStore

end ZoneRelay
