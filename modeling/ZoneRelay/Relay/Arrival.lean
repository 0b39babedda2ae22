import ZoneRelay.Relay.Basic

/-!
# Datagrams that arrive

What a datagram does to the relay before anything is sent or published. A datagram whose
digest holds in the clear is a login; every other one needs a session of its sender.

A login asks for the key of its character before anything else, so a character without a key
leaves no trace. Then the sender gets a session if it has none – the oldest session may have
to make room, and takes its queue along. A login whose sync value asks for it starts the
sequence numbers over and drops what waits for the client.
-/

namespace ZoneRelay

open ZoneRelay.Frame

/-- An accepted datagram: the character it is labelled with and what it brought. -/
structure Arrival where
  client : Address
  character : UInt32
  receipt : Session.Receipt
  deriving DecidableEq

namespace Relay

/-- The session of a client that logs in, a new one if it has none. -/
def enroll (relay : Relay) (clock : Clock) (client : Address) (login : Login) :
    Except Fault (SessionTable.Admission × Relay) :=
  match relay.provider login.character with
  | .error fault => .error fault
  | .ok material =>
    let create : Unit → Except Fault Session := fun _ =>
      .ok (Session.start client login.character (relay.adjustment material) clock.now)
    (relay.sessions.getOrInsert client create).map fun (admission, sessions) =>
      (admission, { relay with sessions })

/-- Counts a login, and gives up the queue of a client that had to make room. -/
def noteAdmission (relay : Relay) (admission : SessionTable.Admission) : Relay :=
  let relay := relay.count (·.login)
  let relay := if admission.created then relay.count (·.sessionCreated) else relay
  match admission.evicted with
  | none => relay
  | some old => { relay.count (·.evictions 1) with queues := relay.queues.remove old }

/-- A session at a login: a pending change of key is given up, and the numbers start over if
the login asks for it. -/
def renew (session : Session) (login : Login) : Session :=
  let session := session.restartLogin
  if login.wantsResync then session.resync login.sync else session

/-- Accepts a login. -/
def acceptLogin (relay : Relay) (clock : Clock) (client : Address) (datagram : Bytes)
    (login : Login) : Except Fault Arrival × Relay :=
  match relay.enroll clock client login with
  | .error fault => (.error fault, relay)
  | .ok (admission, relay) =>
    let relay := relay.noteAdmission admission
    let (receipt, session) :=
      (renew admission.session login).receiveLogin clock.now datagram login
    let relay := relay.store session
    let relay :=
      if login.wantsResync then { relay with queues := relay.queues.remove client } else relay
    (.ok ⟨client, login.character, receipt⟩, relay)

/-- Accepts an encrypted datagram. -/
def acceptEncrypted (relay : Relay) (clock : Clock) (client : Address) (datagram : Bytes) :
    Except Fault Arrival × Relay :=
  match relay.session? client with
  | none => (.error (.sessionNotFound client), relay)
  | some session =>
    let (result, session, scratch) :=
      session.receive relay.book relay.scratch clock.now datagram
    (result.map fun receipt => ⟨client, session.character, receipt⟩,
      { relay with scratch }.store session)

/-- Accepts a datagram. -/
def accept (relay : Relay) (clock : Clock) (client : Address) (datagram : Bytes) :
    Except Fault Arrival × Relay :=
  if datagram.length < headerSize then
    (.error (.inputTruncated headerSize datagram.length), relay)
  else
    match Login.parse? datagram with
    | .error fault => (.error fault, relay)
    | .ok (some login) => relay.acceptLogin clock client datagram login
    | .ok none => relay.acceptEncrypted clock client datagram

end Relay

end ZoneRelay
