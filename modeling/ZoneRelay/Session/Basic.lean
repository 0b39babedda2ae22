import ZoneRelay.Cipher.Packet
import ZoneRelay.Frame.Seal
import ZoneRelay.Net.Address

/-!
# Sessions

What the relay remembers of a client: the cipher in use and, while a change of zone is
pending, the one before it; the client's and the relay's own sequence numbers; and the last
datagram sent, in case it has to be sent again.

A session goes through four states:

* it **waits** until something is sent to it, then it is **sent**;
* once a datagram opens under its key it is **accepted**;
* sending a zone packet changes its key and makes it **pending**: the client may still use
  the key before. A datagram under the new key makes it accepted again and drops the old
  key, one under the old key changes nothing, and a repeated login gives the change up.

Sequence numbers wrap at `2 ^ 16`, but are compared as plain numbers.
-/

namespace ZoneRelay

/-- A point in time, in milliseconds. -/
abbrev Instant := Nat

namespace Session

/-- The states of a session. -/
inductive Status where
  /-- Nothing was sent yet. -/
  | waiting
  /-- Something was sent, nothing was opened yet. -/
  | sent
  /-- The client's datagrams open under the key. -/
  | accepted
  /-- The key has changed; the client may still use the one before. -/
  | pending
  deriving DecidableEq, Repr

/-- A datagram as it was sent, with its sequence number. -/
structure Sent where
  sequence : UInt16
  bytes : Bytes
  deriving DecidableEq

/-- Which key opened a datagram. -/
inductive Opening where
  /-- The key in use. -/
  | current
  /-- The key before the pending change. -/
  | previous
  deriving DecidableEq, Repr

end Session

/-- What the relay remembers of a client. -/
structure Session where
  address : Address
  character : UInt32
  current : KeyedCipher
  previous : Option KeyedCipher
  status : Session.Status
  clientSequence : UInt16
  serverSequence : UInt16
  lastSent : Option Session.Sent
  lastActive : Instant
  deriving DecidableEq

namespace Session

open ZoneRelay.Frame

/-- The session of a character that has just logged in with the given key. -/
def start (address : Address) (character : UInt32) (key : Cipher.Key) (now : Instant) :
    Session where
  address
  character
  current := .ofKey key
  previous := none
  status := .waiting
  clientSequence := 0
  serverSequence := 0
  lastSent := none
  lastActive := now

/-- Notes that the client was heard. -/
def touch (session : Session) (now : Instant) : Session := { session with lastActive := now }

/-! ### Opening datagrams -/

/-- The cipher that may still be in use besides the current one. -/
def fallback? (session : Session) : Option KeyedCipher :=
  if session.status = .pending then session.previous else none

/-- Decrypts a datagram in the buffer it lies in and checks its digest: first under the key in
use, then, if a change is pending, a copy of it under the one before. Gives the key that opened
it, what the buffer holds then, and the session. -/
def decryptInPlace (session : Session) (buffer : Bytes) :
    Except Fault Opening × Bytes × Session :=
  if buffer.length ≤ headerSize then
    (.error (.inputTruncated (headerSize + 1) buffer.length), buffer, session)
  else
    -- the first attempt overwrites the buffer
    let backup := session.fallback?.map fun _ => buffer
    let buffer := session.current.schedule.decryptPacket headerSize buffer
    if verifyChecksum buffer then
      (.ok .current, buffer, { session with previous := none, status := .accepted })
    else
      match session.previous, backup with
      | some cipher, some backup =>
        let backup := cipher.schedule.decryptPacket headerSize backup
        if verifyChecksum backup then (.ok .previous, backup, session)
        else (.error .decryptionFailure, buffer, session)
      | _, _ => (.error .decryptionFailure, buffer, session)

/-- Decrypts a datagram and checks its digest. Gives the key that opened it and the clear
datagram. -/
def decrypt (session : Session) (datagram : Bytes) :
    Except Fault (Opening × Bytes) × Session :=
  let (result, clear, session) := session.decryptInPlace datagram
  (result.map fun opening => (opening, clear), session)

/-- **Both keys are tried on the datagram as it came**: the copy for the second attempt is there
whenever there is a second key. -/
theorem decrypt_eq (session : Session) (datagram : Bytes) :
    session.decrypt datagram =
      if datagram.length ≤ headerSize then
        (.error (.inputTruncated (headerSize + 1) datagram.length), session)
      else
        let clear := session.current.schedule.decryptPacket headerSize datagram
        if verifyChecksum clear then
          (.ok (.current, clear), { session with previous := none, status := .accepted })
        else
          match session.fallback? with
          | none => (.error .decryptionFailure, session)
          | some cipher =>
            let clear := cipher.schedule.decryptPacket headerSize datagram
            if verifyChecksum clear then (.ok (.previous, clear), session)
            else (.error .decryptionFailure, session) := by
  simp only [decrypt, decryptInPlace]
  by_cases hshort : datagram.length ≤ headerSize
  · simp only [if_pos hshort, Except.map]
  · simp only [if_neg hshort]
    by_cases hverify :
        verifyChecksum (session.current.schedule.decryptPacket headerSize datagram) = true
    · simp only [if_pos hverify, Except.map]
    · simp only [if_neg hverify]
      rcases hfallback : session.fallback? with _ | cipher
      · rcases session.previous with _ | other <;> rfl
      · have hprevious : session.previous = some cipher := by
          rw [fallback?] at hfallback
          split at hfallback
          · exact hfallback
          · cases hfallback
        simp only [hprevious, Option.map_some]
        by_cases hother :
            verifyChecksum (cipher.schedule.decryptPacket headerSize datagram) = true
        · simp only [if_pos hother, Except.map]
        · simp only [if_neg hother, Except.map]

/-! ### Keys and sequence numbers -/

/-- Changes to the next key; the one before stays until the client confirms. -/
def rotateKey (session : Session) : Session :=
  { session with
    previous := some session.current
    current := session.current.incremented
    status := .pending }

/-- Notes a datagram as sent under the relay's sequence number, which grows by one. -/
def recordSent (session : Session) (bytes : Bytes) : Session :=
  { session with
    lastSent := some ⟨session.serverSequence, bytes⟩
    status := if session.status = .waiting then .sent else session.status
    serverSequence := session.serverSequence + 1 }

/-- Starts the sequence numbers over, the client's at the given one. -/
def resync (session : Session) (sequence : UInt16) : Session :=
  { session with serverSequence := 0, clientSequence := sequence }

/-- A repeated login gives up a pending change of key. -/
def restartLogin (session : Session) : Session :=
  if session.status = .pending then { session with previous := none, status := .waiting }
  else session

/-- Whether a sub-packet's number is new and not above its datagram's. -/
def inWindow (session : Session) (sequence headerSequence : UInt16) : Bool :=
  session.clientSequence < sequence && sequence ≤ headerSequence

/-- Moves the client's sequence number forward, never back. -/
def advance (session : Session) (headerSequence : UInt16) : Session :=
  { session with clientSequence := max session.clientSequence headerSequence }

/-- The last datagram, if the client has not seen it. -/
def resendFor (session : Session) (ack : UInt16) : Option Bytes :=
  (session.lastSent.filter fun sent => ack < sent.sequence).map (·.bytes)

end Session

end ZoneRelay
