import ZoneRelay.Config.Problem
import ZoneRelay.Net.Address
import ZoneRelay.Text.Shortest

/-!
# Faults

Everything that can go wrong, by cause. A fault of the whole relay
(`ZoneRelay.Fault`) says which part of the work failed; where one part fails in many
ways the cause is a type of its own (`TableFault`, `StreamFault`, `LoginFault`,
`BusFault`, `KeyFault`, `SettingsFault`). Each type has one function `message` with its
wording, so that no other file holds a sentence.

Faults fall into coarse categories (`ZoneRelay.Fault.category`); only those of
configuration stop the relay.
-/

namespace ZoneRelay

/-! ### Causes -/

/-- Why the code tables of a resource directory cannot be used. -/
inductive TableFault where
  /-- A resource whose length is no multiple of four. -/
  | ragged (bytes : Nat)
  /-- An encode table of fewer than 512 words. -/
  | encodeTooShort (words : Nat)
  /-- A code of more than 32 bits. -/
  | codeTooLong (bits : UInt32) (byte : UInt8)
  /-- A decode table without words. -/
  | decodeEmpty
  /-- A pointer that leads out of the decode table. -/
  | pointerOutside (entry : UInt32) (index words : Nat)
  /-- A first word that is no pointer. -/
  | rootMissing
  /-- A node whose right entry is past the end. -/
  | nodeTruncated (slot : Nat)
  /-- A leaf without a byte. -/
  | leafWithoutValue (slot : Nat)
  /-- A code length that is not between 1 and 32. -/
  | lengthOutOfRange (bits : UInt32) (byte : UInt8)
  /-- Code lengths that no prefix code has; their Kraft sum in units of `2 ^ (-32)`. -/
  | notPrefixCode (kraft : Nat)
  /-- A resource that cannot be read. -/
  | unreadable (name path reason : String)
  deriving DecidableEq, Repr

/-- The wording of a table fault. -/
def TableFault.message : TableFault → String
  | .ragged bytes => "Resource length is not a multiple of 4 (" ++ toString bytes ++ " bytes)"
  | .encodeTooShort words => "Encode table has " ++ toString words ++ " words, need at least 512"
  | .codeTooLong bits byte =>
    "Code length " ++ toString bits.toNat ++ " for byte " ++ Text.hex 2 byte.toNat ++
      " exceeds 32 bits"
  | .decodeEmpty => "Decode table is empty"
  | .pointerOutside entry index words =>
    "Decode pointer " ++ Text.hex 1 entry.toNat ++ " resolves to " ++ toString index ++
      ", table has " ++ toString words ++ " words"
  | .rootMissing => "Decode table root is not a pointer"
  | .nodeTruncated slot => "Decode node at word " ++ toString slot ++ " is truncated"
  | .leafWithoutValue slot =>
    "Decode leaf at word " ++ toString slot ++ " has no terminal value"
  | .lengthOutOfRange bits byte =>
    "Code length " ++ toString bits.toNat ++ " for byte " ++ Text.hex 2 byte.toNat ++
      " out of range"
  | .notPrefixCode kraft =>
    "Code lengths are not a prefix code (kraft sum " ++ Text.shortest kraft 32 ++ ")"
  | .unreadable name path reason =>
    "Resource " ++ name ++ " not readable at " ++ path ++ ": " ++ reason

/-- Why a compressed stream cannot be read. -/
inductive StreamFault where
  /-- No bytes. -/
  | empty
  /-- Fewer bits than the header byte has. -/
  | shortBitCount
  /-- Fewer bytes than the bit count asks for. -/
  | shortInput (bitCount required available : Nat)
  /-- A bit that no code continues with. -/
  | missingChild (bit : Nat)
  /-- A child that is no node. -/
  | outsideTrie (node : Nat)
  /-- A bit count that does not fit the bytes in front of it. -/
  | lengthMismatch (bitCount bytes : Nat)
  /-- Any other cause, in words. -/
  | other (text : String)
  deriving DecidableEq, Repr

/-- The wording of a stream fault. -/
def StreamFault.message : StreamFault → String
  | .empty => "Compressed input is empty"
  | .shortBitCount => "Bit count shorter than the header byte"
  | .shortInput bitCount required available =>
    "bit count " ++ toString bitCount ++ " needs " ++ toString required ++ " bytes, got " ++
      toString available
  | .missingChild bit =>
    "Decode trie has no child for the selected bit (bit " ++ toString bit ++ ")"
  | .outsideTrie node => "node " ++ toString node ++ " outside trie"
  | .lengthMismatch bitCount bytes =>
    "Compressed length does not match bit count: " ++ toString bitCount ++ " bits in " ++
      toString bytes ++ " bytes"
  | .other text => text

/-- Why a datagram with a plain checksum is no login. -/
inductive LoginFault where
  /-- No sub-packet at all. -/
  | noSubPacket
  /-- The first sub-packet has another type. -/
  | otherType (kind : UInt16)
  /-- Any other cause, in words. -/
  | other (text : String)
  deriving DecidableEq, Repr

/-- The wording of a login fault. -/
def LoginFault.message : LoginFault → String
  | .noSubPacket => "First sub-packet is not a login request"
  | .otherType kind =>
    "First sub-packet is not a login request (type " ++ Text.hex 3 kind.toNat ++ ")"
  | .other text => text

/-- Why the bus takes or gives no packet. -/
inductive BusFault where
  /-- A frame without bytes. -/
  | emptyFrame
  /-- A frame in no known format. -/
  | unknownFormat (byte : UInt8)
  /-- The workers' channel has no room. -/
  | workerFull
  /-- The workers are gone. -/
  | workerClosed
  /-- The relay's side is gone. -/
  | relayClosed
  /-- Any other cause, in words. -/
  | other (text : String)
  deriving DecidableEq, Repr

/-- The wording of a bus fault. -/
def BusFault.message : BusFault → String
  | .emptyFrame => "Empty bus frame"
  | .unknownFormat byte => "Unknown format byte: " ++ Text.hex 2 byte.toNat
  | .workerFull => "Worker channel full"
  | .workerClosed => "Worker channel closed"
  | .relayClosed => "Router channel closed"
  | .other text => text

/-- Why a character has no key. -/
inductive KeyFault where
  /-- The store does not know the character. -/
  | unknownCharacter (character : UInt32)
  /-- Any other cause, in words. -/
  | other (text : String)
  deriving DecidableEq, Repr

/-- The wording of a key fault. -/
def KeyFault.message : KeyFault → String
  | .unknownCharacter character => "no session key for character " ++ toString character.toNat
  | .other text => text

/-- Why the relay's settings – its configuration, its tables, its keys – cannot be used. -/
inductive SettingsFault where
  /-- Unusable code tables. -/
  | tables (fault : TableFault)
  /-- A configuration text that does not read as one. -/
  | malformedConfig (detail : String)
  /-- A configuration file that cannot be read. -/
  | unreadableConfig (path reason : String)
  /-- A configuration file that cannot be written. -/
  | unwritableConfig (path reason : String)
  /-- A number too large for a configuration file. -/
  | unwritableNumber
  /-- A configuration that does not keep its limits. -/
  | invalidConfig (problems : List Config.Problem)
  /-- An environment variable that is no number. -/
  | malformedNumber (name : String) (fault : Text.NumeralFault)
  /-- An environment variable that is no log level. -/
  | malformedLevel (name text : String)
  /-- A key file text that does not read as one. -/
  | malformedKeys (detail : String)
  /-- A key file that cannot be read. -/
  | unreadableKeys (reason : String)
  /-- Any other cause, in words. -/
  | other (text : String)
  deriving DecidableEq, Repr

/-- The wording of a settings fault. -/
def SettingsFault.message : SettingsFault → String
  | .tables fault => fault.message
  | .malformedConfig detail => "Failed to parse TOML: " ++ detail
  | .unreadableConfig path reason => "Cannot read " ++ path ++ ": " ++ reason
  | .unwritableConfig path reason => "Cannot write " ++ path ++ ": " ++ reason
  | .unwritableNumber => "Cannot render config: out-of-range value for u64 type"
  | .invalidConfig problems =>
    "Configuration validation failed:\n  - " ++
      String.intercalate "\n  - " (problems.map (·.message))
  | .malformedNumber name fault => "Invalid " ++ name ++ ": " ++ fault.message
  | .malformedLevel name text => "Invalid " ++ name ++ ": " ++ text
  | .malformedKeys detail => "Failed to parse key file: " ++ detail
  | .unreadableKeys reason => "Failed to read key file: " ++ reason
  | .other text => text

/-! ### Faults of the relay -/

/-- A fault of the relay. -/
inductive Fault where
  /-- The operating system refused to read or write. -/
  | io (text : String)
  /-- A binary frame that does not read as a packet. -/
  | binary
  /-- A JSON frame that does not read as a packet. -/
  | json (text : String)
  /-- Unusable settings. -/
  | settings (cause : SettingsFault)
  /-- A compressed stream with a wrong first byte. -/
  | invalidHeader
  /-- A compressed stream that cannot be read. -/
  | corruptStream (cause : StreamFault)
  /-- Too few bytes. -/
  | inputTruncated (needed available : Nat)
  /-- Too few bits of room. -/
  | capacityExceeded (needed available : Nat)
  /-- No key opens the datagram. -/
  | decryptionFailure
  /-- A login whose inner sum is wrong. -/
  | checksumMismatch
  /-- A client without a session. -/
  | sessionNotFound (address : Address)
  /-- A datagram with a plain checksum that is no login. -/
  | malformedLogin (cause : LoginFault)
  /-- A payload that fits in no sub-packet. -/
  | oversizedPacket (bytes : Nat)
  /-- The bus failed. -/
  | bus (cause : BusFault)
  /-- The key store failed. -/
  | keys (cause : KeyFault)
  deriving DecidableEq

namespace Fault

/-- The wording of a fault. -/
def message : Fault → String
  | .io text => "I/O error: " ++ text
  | .binary => "Serialization error"
  | .json text => "JSON error: " ++ text
  | .settings cause => "Configuration error: " ++ cause.message
  | .invalidHeader => "Invalid compressed header"
  | .corruptStream cause => "Corrupt compressed stream: " ++ cause.message
  | .inputTruncated needed available =>
    "Input truncated: needed " ++ toString needed ++ " bytes, got " ++ toString available
  | .capacityExceeded needed available =>
    "Insufficient space: needed " ++ toString needed ++ " bits, have " ++ toString available
  | .decryptionFailure => "Decryption failed"
  | .checksumMismatch => "Checksum mismatch"
  | .sessionNotFound address => "No session for " ++ address.text
  | .malformedLogin cause => "Malformed sub-packet: " ++ cause.message
  | .oversizedPacket bytes => "Packet too large: " ++ toString bytes ++ " bytes"
  | .bus cause => "Bus error: " ++ cause.message
  | .keys cause => "Key provider error: " ++ cause.message

/-- The coarse kinds of faults. -/
inductive Category where
  /-- Settings; the only faults that stop the relay. -/
  | configuration
  /-- Undecodable datagrams. -/
  | decode
  /-- Datagrams that no key opens, logins with a wrong sum. -/
  | crypto
  /-- Breaches of the protocol. -/
  | protocol
  /-- Too little room. -/
  | capacity
  /-- The operating system. -/
  | io
  /-- The bus and the key store. -/
  | external
  deriving DecidableEq, Repr

/-- The category of a fault. -/
def category : Fault → Category
  | .settings _ => .configuration
  | .invalidHeader | .corruptStream _ | .inputTruncated _ _ => .decode
  | .decryptionFailure | .checksumMismatch => .crypto
  | .sessionNotFound _ | .malformedLogin _ | .oversizedPacket _ => .protocol
  | .capacityExceeded _ _ => .capacity
  | .io _ => .io
  | .binary | .json _ | .bus _ | .keys _ => .external

/-- Whether a fault stops the relay. -/
def isFatal (fault : Fault) : Bool := fault.category == .configuration

/-- Unusable code tables, as a fault of the relay. -/
def ofTable (fault : TableFault) : Fault := .settings (.tables fault)

end Fault

end ZoneRelay
