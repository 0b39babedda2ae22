import ZoneRelay.Session.Inbound
import ZoneRelay.Session.Outbound

/-!
# Runs of a session

A session changes by ten operations (`ZoneRelay.Session.Op`): datagrams are packed for the
client and taken apart from it, and the steps these consist of can be taken on their own – to
decrypt, to change the key, to note a datagram as sent, to move the sequence numbers, to note
activity. A **run** is a list of operations; its **trace** (`ZoneRelay.Session.trace`) keeps for
each the session before it, what came out, and the session after it. Sessions reached by a run
from a fresh session are **reachable** (`ZoneRelay.Session.Reachable`).

Operations may fail, and a run goes on after a failure. What a failed operation leaves behind
is said here once, for each of the operations that can fail, together with what a successful
one does:

* `ZoneRelay.Session.decrypt_cases`: three outcomes, of which only opening under the current
  key changes the session – it is confirmed (`ZoneRelay.Session.confirmed`);
* `ZoneRelay.Session.receive_cases`: decrypting, and on success harvesting the region;
* `ZoneRelay.Session.assemble_cases`: nothing, or one datagram noted as sent and, with a zone
  packet in it, the key changed.

Of the ciphers all other operations but the change of key itself can only drop the previous one
(`ZoneRelay.Session.ciphers_step`).

Scratch buffers are shared with other sessions, so an operation comes with whatever pool it
finds.
-/

namespace ZoneRelay

namespace Session

open ZoneRelay.Frame

/-! ### Operations and their traces -/

/-- What can be done to a session. -/
inductive Op where
  /-- Packs the waiting sub-packets, at most `limit` of them, into one datagram. -/
  | assemble (limit : Nat) (timestamp : UInt32) (waiting : List SubPacket)
  /-- Takes an encrypted datagram apart. -/
  | receive (pool : BufferPool) (now : Instant) (datagram : Bytes)
  /-- Takes a login datagram apart. -/
  | receiveLogin (now : Instant) (datagram : Bytes) (login : Login)
  /-- Decrypts a datagram and does no more with it. -/
  | decrypt (datagram : Bytes)
  /-- Changes to the next key. -/
  | rotateKey
  /-- Notes a datagram as sent. -/
  | recordSent (bytes : Bytes)
  /-- Starts the sequence numbers over. -/
  | resync (sequence : UInt16)
  /-- Gives up a pending change of key. -/
  | restartLogin
  /-- Moves the client's sequence number forward. -/
  | advance (sequence : UInt16)
  /-- Notes that the client was heard. -/
  | touch (now : Instant)

/-- What comes out of an operation. -/
inductive Outcome where
  /-- A datagram for the client, or why there is none. -/
  | assembled (result : Except Fault Assembled)
  /-- What a datagram of the client brought, or why it was refused. -/
  | received (result : Except Fault Receipt)
  /-- Nothing. -/
  | silent

/-- The receipt that came out, if one did. -/
def Outcome.receipt? : Outcome → Option Receipt
  | received (.ok receipt) => some receipt
  | _ => none

/-- The datagram that was packed, if one was. -/
def Outcome.assembled? : Outcome → Option Assembled
  | assembled (.ok sent) => some sent
  | _ => none

/-- Carries an operation out. -/
def Op.apply (book : Code.Book) (session : Session) : Op → Outcome × Session
  | assemble limit timestamp waiting =>
    let (result, after) := session.assemble book limit timestamp waiting
    (.assembled result, after)
  | receive pool now datagram =>
    let (result, after, _) := session.receive book pool now datagram
    (.received result, after)
  | receiveLogin now datagram login =>
    let (receipt, after) := session.receiveLogin now datagram login
    (.received (.ok receipt), after)
  | decrypt datagram => (.silent, (session.decrypt datagram).2)
  | rotateKey => (.silent, session.rotateKey)
  | recordSent bytes => (.silent, session.recordSent bytes)
  | resync sequence => (.silent, session.resync sequence)
  | restartLogin => (.silent, session.restartLogin)
  | advance sequence => (.silent, session.advance sequence)
  | touch now => (.silent, session.touch now)

/-- One operation of a run, with the sessions before and after it. -/
structure Step where
  before : Session
  op : Op
  outcome : Outcome
  after : Session

/-- An operation carried out. -/
def step (book : Code.Book) (session : Session) (op : Op) : Step :=
  ⟨session, op, (op.apply book session).1, (op.apply book session).2⟩

theorem step_assemble (book : Code.Book) (session : Session) (limit : Nat) (timestamp : UInt32)
    (waiting : List SubPacket) :
    session.step book (.assemble limit timestamp waiting) =
      ⟨session, .assemble limit timestamp waiting,
        .assembled (session.assemble book limit timestamp waiting).1,
        (session.assemble book limit timestamp waiting).2⟩ := by
  rcases h : session.assemble book limit timestamp waiting with ⟨result, after⟩
  rw [step, Op.apply, h]

theorem step_receive (book : Code.Book) (session : Session) (pool : BufferPool) (now : Instant)
    (datagram : Bytes) :
    session.step book (.receive pool now datagram) =
      ⟨session, .receive pool now datagram,
        .received (session.receive book pool now datagram).1,
        (session.receive book pool now datagram).2.1⟩ := by
  rcases h : session.receive book pool now datagram with ⟨result, after, pool'⟩
  rw [step, Op.apply, h]

/-- The operations of a run, each carried out on what the one before left. -/
def trace (book : Code.Book) : Session → List Op → List Step
  | _, [] => []
  | session, op :: rest =>
    session.step book op :: trace book (session.step book op).after rest

/-- The session at the end of a run. -/
def run (book : Code.Book) (session : Session) (ops : List Op) : Session :=
  ops.foldl (fun session op => (session.step book op).after) session

@[simp] theorem run_cons (book : Code.Book) (session : Session) (op : Op) (rest : List Op) :
    session.run book (op :: rest) = (session.step book op).after.run book rest :=
  rfl

theorem run_append (book : Code.Book) (session : Session) (ops more : List Op) :
    session.run book (ops ++ more) = (session.run book ops).run book more :=
  List.foldl_append

theorem trace_append (book : Code.Book) (session : Session) (ops more : List Op) :
    trace book session (ops ++ more) =
      trace book session ops ++ trace book (session.run book ops) more := by
  induction ops generalizing session with
  | nil => rfl
  | cons op rest ih => rw [List.cons_append, trace, ih, trace, run_cons, List.cons_append]

/-- **A session that a run can lead to** from the login of a character. -/
def Reachable (book : Code.Book) (session : Session) : Prop :=
  ∃ (address : Address) (character : UInt32) (key : Cipher.Key) (now : Instant) (ops : List Op),
    (start address character key now).run book ops = session

/-- **What every operation keeps, every reachable session has**, if a fresh one has it. -/
theorem Reachable.induction {book : Code.Book} {P : Session → Prop}
    (hstart : ∀ address character key now, P (start address character key now))
    (hstep : ∀ session op, P session → P (session.step book op).after) {session : Session}
    (h : Reachable book session) : P session := by
  obtain ⟨address, character, key, now, ops, rfl⟩ := h
  -- the session a run starts from has to be any with `P`, not only a fresh one
  have hrun : ∀ session, P session → P (session.run book ops) := by
    induction ops with
    | nil => exact fun _ h => h
    | cons op rest ih => exact fun session h => ih _ (hstep session op h)
  exact hrun _ (hstart address character key now)

/-- A run goes on from where a run has led. -/
theorem Reachable.run {book : Code.Book} {session : Session} (h : Reachable book session)
    (ops : List Op) : Reachable book (session.run book ops) := by
  obtain ⟨address, character, key, began, before, rfl⟩ := h
  exact ⟨address, character, key, began, before ++ ops, run_append book _ before ops⟩

/-! ### What an operation can do -/

/-- The session after a datagram opened under the current key: a pending change of key is
over. -/
def confirmed (session : Session) : Session :=
  { session with previous := none, status := .accepted }

/-- **What decrypting can do**: fail and change nothing, open under the current key and
confirm it, or open under the previous one and change nothing. -/
theorem decrypt_cases (session : Session) (datagram : Bytes) :
    (∃ fault, session.decrypt datagram = (.error fault, session)) ∨
    (∃ clear, session.decrypt datagram = (.ok (.current, clear), session.confirmed)) ∨
    (∃ clear, session.decrypt datagram = (.ok (.previous, clear), session)) := by
  rw [decrypt_eq]
  split
  · exact Or.inl ⟨_, rfl⟩
  · simp only
    split
    · exact Or.inr (Or.inl ⟨_, rfl⟩)
    · split
      · exact Or.inl ⟨_, rfl⟩
      · split
        · exact Or.inr (Or.inr ⟨_, rfl⟩)
        · exact Or.inl ⟨_, rfl⟩

@[simp] theorem current_confirmed (session : Session) :
    session.confirmed.current = session.current :=
  rfl

@[simp] theorem current_recordSent (session : Session) (bytes : Bytes) :
    (session.recordSent bytes).current = session.current :=
  rfl

@[simp] theorem current_rotateKey (session : Session) :
    session.rotateKey.current = session.current.incremented :=
  rfl

/-- What taking a datagram apart gives when its region is harvested. -/
def receipt (session : Session) (header : Header) (kind : Kind) (region : Bytes)
    (resend : Option Bytes) : Receipt :=
  let found := (session.harvest header.sequence region).1
  ⟨header, kind, found.packets, found.skipped, found.ending, resend⟩

/-- **What harvesting gives**: the accepted sub-packets in order, the number of the others, and
the ending; the client's number moves if anything was accepted. -/
theorem harvest_eq (session : Session) (sequence : UInt16) (region : Bytes) :
    session.harvest sequence region =
      (⟨((demux region).1.filter (session.accepts sequence)).map (·.toSubPacket),
          ((demux region).1.filter fun raw => !session.accepts sequence raw).length,
          (demux region).2⟩,
        if (demux region).1.filter (session.accepts sequence) = [] then session
        else session.advance sequence) := by
  have hnot : (not ∘ session.accepts sequence) = fun raw => !session.accepts sequence raw := rfl
  simp only [harvest, List.partition_eq_filter_filter, hnot, List.isEmpty_iff]

/-- Harvesting changes no more than the client's sequence number. -/
theorem harvest_snd (session : Session) (sequence : UInt16) (region : Bytes) :
    (session.harvest sequence region).2 = session ∨
      (session.harvest sequence region).2 = session.advance sequence := by
  simp only [harvest]
  split
  · exact Or.inl rfl
  · exact Or.inr rfl

theorem resendFor_harvest (session : Session) (sequence ack : UInt16) (region : Bytes) :
    (session.harvest sequence region).2.resendFor ack = session.resendFor ack := by
  rcases session.harvest_snd sequence region with h | h <;> rw [h]
  rfl

/-- A login datagram is harvested in the clear. -/
theorem receiveLogin_eq (session : Session) (now : Instant) (datagram : Bytes) (login : Login) :
    session.receiveLogin now datagram login =
      (session.receipt login.header .login (Login.body datagram) none,
        (session.harvest login.header.sequence (Login.body datagram)).2.touch now) :=
  rfl

/-- **A datagram that opens is harvested.** -/
theorem receive_eq_ok {book : Code.Book} {pool pool' : BufferPool} {session opened : Session}
    {datagram clear region : Bytes} {opening : Opening} {header : Header} (now : Instant)
    (hlong : 45 ≤ datagram.length)
    (hdecrypt : session.decrypt datagram = (.ok (opening, clear), opened))
    (hopen : openRegion book pool clear = (.ok (header, region), pool')) :
    session.receive book pool now datagram =
      (.ok (opened.receipt header (.opened opening) region (opened.resendFor header.ack)),
        (opened.harvest header.sequence region).2.touch now, pool') := by
  have hleast : ¬ datagram.length < headerSize + checksumSize + 1 := by
    simp only [headerSize, checksumSize]
    omega
  rw [receive]
  simp only [if_neg hleast, hdecrypt, hopen, ← opened.resendFor_harvest header.sequence _ region]
  rfl

/-- **What receiving can do**: decrypting may confirm the current key; then the datagram is
refused and nothing else changes, or its region is harvested. -/
theorem receive_cases (book : Code.Book) (pool : BufferPool) (session : Session) (now : Instant)
    (datagram : Bytes) : ∃ opened, (opened = session ∨ opened = session.confirmed) ∧
    ((∃ fault, (session.receive book pool now datagram).1 = .error fault ∧
        (session.receive book pool now datagram).2.1 = opened) ∨
      ∃ header opening region,
        (session.receive book pool now datagram).1 =
          .ok (opened.receipt header (.opened opening) region (opened.resendFor header.ack)) ∧
        (session.receive book pool now datagram).2.1 =
          (opened.harvest header.sequence region).2.touch now) := by
  by_cases hshort : datagram.length < headerSize + checksumSize + 1
  · refine ⟨session, Or.inl rfl,
      Or.inl ⟨.inputTruncated (headerSize + checksumSize + 1) datagram.length, ?_, ?_⟩⟩ <;>
        rw [receive] <;> simp only [if_pos hshort]
  have hlong : 45 ≤ datagram.length := Nat.le_of_not_lt hshort
  have hopened : ∀ opened opening clear,
      session.decrypt datagram = (.ok (opening, clear), opened) →
      (∃ fault, (session.receive book pool now datagram).1 = .error fault ∧
        (session.receive book pool now datagram).2.1 = opened) ∨
      ∃ header opening region,
        (session.receive book pool now datagram).1 =
          .ok (opened.receipt header (.opened opening) region (opened.resendFor header.ack)) ∧
        (session.receive book pool now datagram).2.1 =
          (opened.harvest header.sequence region).2.touch now := by
    intro opened opening clear hdecrypt
    rcases hopen : openRegion book pool clear with ⟨fault | ⟨header, region⟩, pool'⟩
    · refine Or.inl ⟨fault, ?_, ?_⟩ <;> rw [receive] <;>
        simp only [if_neg hshort, hdecrypt, hopen]
    · have heq := receive_eq_ok now hlong hdecrypt hopen
      exact Or.inr ⟨header, opening, region, by rw [heq], by rw [heq]⟩
  rcases session.decrypt_cases datagram with ⟨fault, h⟩ | ⟨clear, h⟩ | ⟨clear, h⟩
  · refine ⟨session, Or.inl rfl, Or.inl ⟨fault, ?_, ?_⟩⟩ <;> rw [receive] <;>
      simp only [if_neg hshort, h]
  · exact ⟨session.confirmed, Or.inr rfl, hopened _ _ _ h⟩
  · exact ⟨session, Or.inl rfl, hopened _ _ _ h⟩

/-- **What packing can do**: fail and change nothing, or note one datagram as sent and then, if
there is a zone packet among those it holds, change the key. -/
theorem assemble_cases (book : Code.Book) (limit : Nat) (session : Session) (timestamp : UInt32)
    (waiting : List SubPacket) :
    (∃ fault, session.assemble book limit timestamp waiting = (.error fault, session)) ∨
    ∃ bytes consumed zone,
      zone = (waiting.take consumed).any (·.kind == zoneType) ∧
      buildUpTo book session timestamp waiting (min waiting.length limit) = .ok (bytes, consumed) ∧
      session.assemble book limit timestamp waiting =
        (.ok ⟨bytes, session.serverSequence, consumed, zone⟩,
          if zone then (session.recordSent bytes).rotateKey else session.recordSent bytes) := by
  rcases hbuild : buildUpTo book session timestamp waiting (min waiting.length limit) with
    fault | ⟨bytes, consumed⟩
  · exact Or.inl ⟨fault, by rw [assemble, hbuild]⟩
  · exact Or.inr ⟨bytes, consumed, _, rfl, rfl, by rw [assemble, hbuild]⟩

/-- **No other operation touches the ciphers** but packing and the change of key itself, except
that the previous one may be dropped. -/
theorem ciphers_step (book : Code.Book) (session : Session) {op : Op}
    (hassemble : ¬ ∃ limit timestamp waiting, op = .assemble limit timestamp waiting)
    (hrotate : op ≠ .rotateKey) :
    (session.step book op).after.current = session.current ∧
      ((session.step book op).after.previous = session.previous ∨
        (session.step book op).after.previous = none) := by
  cases op with
  | assemble limit timestamp waiting => exact absurd ⟨limit, timestamp, waiting, rfl⟩ hassemble
  | rotateKey => exact absurd rfl hrotate
  | receive pool now datagram =>
    obtain ⟨opened, hopened, hcases⟩ := receive_cases book pool session now datagram
    have hciphers : opened.current = session.current ∧
        (opened.previous = session.previous ∨ opened.previous = none) := by
      rcases hopened with rfl | rfl
      · exact ⟨rfl, Or.inl rfl⟩
      · exact ⟨current_confirmed session, Or.inr rfl⟩
    rw [step_receive]
    rcases hcases with ⟨fault, -, hafter⟩ | ⟨header, opening, region, -, hafter⟩
    · simpa only [hafter] using hciphers
    · rcases opened.harvest_snd header.sequence region with hsame | hmoved
      · simpa only [hafter, hsame, touch] using hciphers
      · simpa only [hafter, hmoved, touch, advance] using hciphers
  | receiveLogin now datagram login =>
    rw [step, Op.apply, receiveLogin_eq]
    rcases session.harvest_snd login.header.sequence (Login.body datagram) with hsame | hmoved
    · simp only [hsame, touch, true_or, and_self]
    · simp only [hmoved, touch, advance, true_or, and_self]
  | decrypt datagram =>
    rw [step, Op.apply]
    rcases session.decrypt_cases datagram with ⟨fault, h⟩ | ⟨clear, h⟩ | ⟨clear, h⟩ <;> rw [h]
    · exact ⟨rfl, Or.inl rfl⟩
    · exact ⟨current_confirmed session, Or.inr rfl⟩
    · exact ⟨rfl, Or.inl rfl⟩
  | recordSent bytes => exact ⟨current_recordSent session bytes, Or.inl rfl⟩
  | resync sequence => exact ⟨rfl, Or.inl rfl⟩
  | restartLogin =>
    rw [step, Op.apply, restartLogin]
    split
    · exact ⟨rfl, Or.inr rfl⟩
    · exact ⟨rfl, Or.inl rfl⟩
  | advance sequence => exact ⟨rfl, Or.inl rfl⟩
  | touch now => exact ⟨rfl, Or.inl rfl⟩

/-! ### The changes that operations are made of -/

/-- **Operations are made of seven changes.** A relation between sessions that holds along each
of them, and along nothing and one after the other, holds along every operation. -/
theorem step_of_changes {R : Session → Session → Prop} (hrefl : ∀ session, R session session)
    (htrans : ∀ {a b c}, R a b → R b c → R a c)
    (hconfirmed : ∀ session, R session session.confirmed)
    (hrecordSent : ∀ session bytes, R session (session.recordSent bytes))
    (hrotateKey : ∀ session, R session session.rotateKey)
    (hresync : ∀ session sequence, R session (session.resync sequence))
    (hrestartLogin : ∀ session, R session session.restartLogin)
    (hadvance : ∀ session sequence, R session (session.advance sequence))
    (htouch : ∀ session now, R session (session.touch now)) (book : Code.Book)
    (session : Session) (op : Op) : R session (session.step book op).after := by
  have hharvest : ∀ (opened : Session) (sequence : UInt16) (region : Bytes) (now : Instant),
      R opened ((opened.harvest sequence region).2.touch now) := by
    intro opened sequence region now
    rcases opened.harvest_snd sequence region with h | h <;> rw [h]
    · exact htouch opened now
    · exact htrans (hadvance opened sequence) (htouch _ now)
  cases op with
  | assemble limit timestamp waiting =>
    rw [step_assemble]
    rcases session.assemble_cases book limit timestamp waiting with
      ⟨fault, heq⟩ | ⟨bytes, consumed, zone, -, -, heq⟩
    · rw [heq]
      exact hrefl session
    · rw [heq]
      cases zone with
      | true => exact htrans (hrecordSent session bytes) (hrotateKey _)
      | false => exact hrecordSent session bytes
  | receive pool now datagram =>
    obtain ⟨opened, hopened, hcases⟩ := receive_cases book pool session now datagram
    have hopen : R session opened := by
      rcases hopened with rfl | rfl
      · exact hrefl _
      · exact hconfirmed session
    rw [step_receive]
    rcases hcases with ⟨fault, -, hafter⟩ | ⟨header, opening, region, -, hafter⟩
    · rw [hafter]
      exact hopen
    · rw [hafter]
      exact htrans hopen (hharvest opened header.sequence region now)
  | receiveLogin now datagram login =>
    rw [step, Op.apply, receiveLogin_eq]
    exact hharvest session login.header.sequence (Login.body datagram) now
  | decrypt datagram =>
    rw [step, Op.apply]
    rcases session.decrypt_cases datagram with ⟨fault, h⟩ | ⟨clear, h⟩ | ⟨clear, h⟩ <;> rw [h]
    · exact hrefl session
    · exact hconfirmed session
    · exact hrefl session
  | rotateKey => exact hrotateKey session
  | recordSent bytes => exact hrecordSent session bytes
  | resync sequence => exact hresync session sequence
  | restartLogin => exact hrestartLogin session
  | advance sequence => exact hadvance session sequence
  | touch now => exact htouch session now

/-- No operation changes whose session it is. -/
theorem identity_step (book : Code.Book) (session : Session) (op : Op) :
    (session.step book op).after.address = session.address ∧
      (session.step book op).after.character = session.character := by
  refine step_of_changes (R := fun before after => after.address = before.address ∧
    after.character = before.character) (fun _ => ⟨rfl, rfl⟩)
    (fun hab hbc => ⟨hbc.1.trans hab.1, hbc.2.trans hab.2⟩) (fun _ => ⟨rfl, rfl⟩)
    (fun _ _ => ⟨rfl, rfl⟩) (fun session => ?_) (fun _ _ => ⟨rfl, rfl⟩) (fun session => ?_)
    (fun _ _ => ⟨rfl, rfl⟩) (fun _ _ => ⟨rfl, rfl⟩) book session op
  · rw [rotateKey]
    exact ⟨rfl, rfl⟩
  · rw [restartLogin]
    split <;> exact ⟨rfl, rfl⟩

theorem identity_run (book : Code.Book) (session : Session) (ops : List Op) :
    (session.run book ops).address = session.address ∧
      (session.run book ops).character = session.character := by
  induction ops generalizing session with
  | nil => exact ⟨rfl, rfl⟩
  | cons op rest ih =>
    obtain ⟨haddress, hcharacter⟩ := identity_step book session op
    exact ⟨(ih _).1.trans haddress, (ih _).2.trans hcharacter⟩

end Session

end ZoneRelay
