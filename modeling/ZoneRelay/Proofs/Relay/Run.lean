import ZoneRelay.Proofs.Code.Layout
import ZoneRelay.Proofs.Relay.World
import ZoneRelay.Relay.Upkeep

/-!
# Runs of a relay

A relay changes by ten operations (`ZoneRelay.Relay.Op`): datagrams are handled, packets are put
into queues, the queues are emptied, signs of life are sent, sessions end; and the source of keys
may change at any time. Each is carried out in a world, which may refuse any datagram and any
packet. A **run** is a list of operations; its **trace** (`ZoneRelay.Relay.trace`) keeps for
each the relay before it, what came out, and the relay after it, every time with the journal. A
run goes on whatever comes out.

Relays that a run leads to from one without sessions, in some world and with a code that was
loaded, are **reachable** (`ZoneRelay.Relay.Reachable`).
-/

namespace ZoneRelay

open ZoneRelay.Frame (SubPacket)

namespace Relay

open World

/-! ### Operations and their traces -/

/-- What can be done to a relay. -/
inductive Op where
  /-- Handles a datagram. -/
  | handle (clock : Clock) (client : Address) (datagram : Bytes)
  /-- Handles a datagram as it is read from the socket. -/
  | receive (clock : Clock) (client : Address) (datagram : Bytes)
  /-- Puts sub-packets into a client's queue. -/
  | enqueue (client : Address) (packets : List SubPacket)
  /-- Puts a worker's packet into its client's queue. -/
  | enqueueRouted (routed : Bus.Routed)
  /-- Takes a worker's reply from the bus. -/
  | takeReply (reply : Except Fault Bus.Routed)
  /-- Empties all queues. -/
  | flush (clock : Clock)
  /-- Sends a sign of life. -/
  | keepAlive (clock : Clock) (client : Address)
  /-- Ends idle sessions that are not busy. -/
  | sweep (clock : Clock) (busy : Address → Bool)
  /-- Ends the session of a client. -/
  | disconnect (client : Address)
  /-- Changes what is known of the characters' keys. -/
  | provide (provider : KeyProvider)

/-- The datagram that an operation handles: when, from whom, and its bytes. -/
def Op.datagram? : Op → Option (Clock × Address × Bytes)
  | handle clock client datagram => some (clock, client, datagram)
  | receive clock client datagram => some (clock, client, datagram)
  | _ => none

/-- The client that an operation is addressed to. -/
def Op.client? : Op → Option Address
  | handle _ client _ => some client
  | receive _ client _ => some client
  | enqueue client _ => some client
  | enqueueRouted routed => some routed.client
  | takeReply (.ok routed) => some routed.client
  | keepAlive _ client => some client
  | disconnect client => some client
  | _ => none

/-- A datagram is addressed to its sender. -/
theorem Op.client?_of_datagram? {op : Op} {clock : Clock} {client : Address} {datagram : Bytes}
    (h : op.datagram? = some (clock, client, datagram)) : op.client? = some client := by
  cases op with
  | handle | receive =>
    cases h
    rfl
  | enqueue | enqueueRouted | takeReply | flush | keepAlive | sweep | disconnect | provide =>
    cases h

/-- What comes out of an operation. -/
inductive Outcome where
  /-- How many sub-packets of a datagram the bus took, or why it was refused. -/
  | handled (result : Except Fault Nat)
  /-- How many sub-packets were put into a queue. -/
  | enqueued (result : Except Fault Nat)
  /-- How many datagrams were taken. -/
  | flushed (sent : Nat)
  /-- Whether a sign of life was sent. -/
  | kept (result : Except Fault Unit)
  /-- How many sessions ended. -/
  | swept (gone : Nat)
  /-- Whether there was a session to end. -/
  | disconnected (found : Bool)
  /-- Nothing. -/
  | silent

/-- Whether a client was disconnected that had a session. -/
def Outcome.ends : Outcome → Bool
  | disconnected found => found
  | _ => false

/-- Carries an operation out. -/
def Op.apply (world : World) (relay : Relay) : Op → StateM Journal (Outcome × Relay)
  | handle clock client datagram => do
    let (result, after) ← relay.handle world.outlets clock client datagram
    return (.handled result, after)
  | receive clock client datagram => do
    let after ← relay.receive world.outlets clock client datagram
    return (.silent, after)
  | enqueue client packets =>
    let (result, after) := relay.enqueue client packets
    return (.enqueued result, after)
  | enqueueRouted routed =>
    let (result, after) := relay.enqueueRouted routed
    return (.enqueued result, after)
  | takeReply reply => return (.silent, relay.takeReply reply)
  | flush clock => do
    let (sent, after) ← relay.flush world.outlets clock
    return (.flushed sent, after)
  | keepAlive clock client => do
    let (result, after) ← relay.keepAlive world.outlets clock client
    return (.kept result, after)
  | sweep clock busy =>
    let (gone, after) := relay.sweepExcept clock busy
    return (.swept gone, after)
  | disconnect client =>
    let (found, after) := relay.disconnect client
    return (.disconnected found, after)
  | provide provider => return (.silent, { relay with provider })

/-- A relay and all that it has done to the world. -/
structure State where
  relay : Relay
  journal : Journal

/-- One operation of a run, with the states before and after it. -/
structure Step where
  before : State
  op : Op
  outcome : Outcome
  after : State

/-- An operation carried out. -/
def step (world : World) (state : State) (op : Op) : Step :=
  let result := perform (op.apply world state.relay) state.journal
  ⟨state, op, result.1.1, ⟨result.1.2, result.2⟩⟩

/-- The operations of a run, each carried out on what the one before left. -/
def trace (world : World) : State → List Op → List Step
  | _, [] => []
  | state, op :: rest => step world state op :: trace world (step world state op).after rest

/-- The state at the end of a run. -/
def run (world : World) (state : State) (ops : List Op) : State :=
  ops.foldl (fun state op => (step world state op).after) state

@[simp] theorem run_cons (world : World) (state : State) (op : Op) (rest : List Op) :
    run world state (op :: rest) = run world (step world state op).after rest :=
  rfl

theorem run_append (world : World) (state : State) (ops more : List Op) :
    run world state (ops ++ more) = run world (run world state ops) more :=
  List.foldl_append

theorem trace_append (world : World) (state : State) (ops more : List Op) :
    trace world state (ops ++ more) =
      trace world state ops ++ trace world (run world state ops) more := by
  induction ops generalizing state with
  | nil => rfl
  | cons op rest ih => rw [List.cons_append, trace, ih, trace, run_cons, List.cons_append]

theorem length_trace (world : World) (state : State) (ops : List Op) :
    (trace world state ops).length = ops.length := by
  induction ops generalizing state with
  | nil => rfl
  | cons op rest ih => rw [trace, List.length_cons, ih, List.length_cons]

/-- A relay without sessions, any adjustment of keys instead of the configured one. -/
def fresh (config : Config) (book : Code.Book) (provider : KeyProvider)
    (adjustment : KeyAdjustment) : State :=
  ⟨{ start config book provider with adjustment }, []⟩

/-- **A relay that a run can lead to.** -/
def Reachable (relay : Relay) : Prop :=
  ∃ (config : Config) (book : Code.Book) (provider : KeyProvider) (adjustment : KeyAdjustment)
    (world : World) (ops : List Op), book.Loaded ∧
    relay = (run world (fresh config book provider adjustment) ops).relay

/-! ### A short run -/

/-- The code book of some lengths, which loads. -/
def bookOf (lengths : Code.Lengths) : Code.Book :=
  lengths.book.toOption.getD ⟨lengths.encoder, ⟨#[]⟩⟩

theorem book_eq_bookOf (lengths : Code.Lengths) : lengths.book = .ok (bookOf lengths) := by
  obtain ⟨book, hbook, -⟩ := lengths.exists_book
  have hof : bookOf lengths = book := by
    unfold bookOf
    rw [hbook]
    rfl
  rw [hof]
  exact hbook

theorem loaded_bookOf (lengths : Code.Lengths) : (bookOf lengths).Loaded :=
  ⟨_, _, book_eq_bookOf lengths⟩

/-- A world that gives every datagram the same answer and takes every packet. -/
def answering (answer : Except String Unit) : World where
  send _ _ _ := answer
  publish _ _ := .ok ()

/-- A new relay that knows the same key for every character. -/
def newcomer : State :=
  fresh .standard (bookOf .standard) (fun _ => .ok ⟨.ofText "secret", false⟩) .none

/-- A client logs in for a character. -/
def entry (character : UInt32) : Op :=
  .handle ⟨0, 0⟩ (.v4 127 0 0 1 5000) (Login.datagram character 0 1 [])

/-- A relay at which a client has logged in for a number of characters, one after the other. -/
def entered (characters : List UInt32) : State :=
  run (answering (.ok ())) newcomer (characters.map entry)

theorem run_entered (characters : List UInt32) (ops : List Op) :
    run (answering (.ok ())) (entered characters) ops =
      run (answering (.ok ())) newcomer (characters.map entry ++ ops) :=
  (run_append _ _ _ _).symm

/-- Whatever is done after the logins, the relay is reachable. -/
theorem reachable_entered (characters : List UInt32) (ops : List Op) :
    Reachable (run (answering (.ok ())) (entered characters) ops).relay :=
  ⟨.standard, bookOf .standard, _, .none, answering (.ok ()), characters.map entry ++ ops,
    loaded_bookOf .standard, by rw [run_entered, newcomer]⟩

/-- A client logs in, a packet is put into its queue, and it is disconnected. -/
def visit : List Op :=
  [entry 7, .enqueue (.v4 127 0 0 1 5000) [⟨0x15, 0, [1]⟩], .disconnect (.v4 127 0 0 1 5000)]

end Relay

end ZoneRelay
