import ZoneRelay.Proofs.Cipher.Key
import ZoneRelay.Proofs.Session.Acceptance

/-!
# The keys of a session

A session keeps its current cipher, the one before while a change of key is pending, and a
status. Ten operations touch these three fields one by one, and some of them stop halfway.
**They never come apart** (`ZoneRelay.Session.keys_of_run`): there is a previous cipher exactly
while a change is pending, its key is the one before the current key, both ciphers are those of
their keys, and the current key is the first one with its last word increased by two for each
change so far.

An operation does one of two things (`ZoneRelay.Session.keys_step`).

| | current cipher | previous cipher and status |
|---|---|---|
| it changes the key | the next one | the current one, pending |
| it does not | the same | both as they were, or dropped and no longer pending |

The second is `ZoneRelay.Session.Settled`. A datagram with a zone packet is noted as sent before
the key changes, so packing does first the one and then the other.

Keys are counted in `2 ^ 32`, two at a time. So among fewer than `2 ^ 31` changes in a row no
key comes back (`ZoneRelay.Cipher.Key.iterate_incremented_ne`).

Of all the keys that a session has had, only the latest and the one before it open a datagram
(`ZoneRelay.Session.exists_key_of_receive`). Where the key is not changed on its own, how many
there were is read off the datagrams that were packed (`ZoneRelay.Session.rotations_eq_countP`).
-/

namespace ZoneRelay

namespace Session

open ZoneRelay.Frame

/-! ### Operations that do not change the key -/

/-- **What an operation does to ciphers and status without changing the key**: the current
cipher stays; the previous one stays and with it whether a change is pending, or it is dropped
and no change is pending. -/
structure Settled (before after : Session) : Prop where
  current : after.current = before.current
  previous : (after.previous = before.previous ∧
      (after.status = .pending ↔ before.status = .pending)) ∨
    (after.previous = none ∧ after.status ≠ .pending)

theorem Settled.refl (session : Session) : Settled session session :=
  ⟨rfl, Or.inl ⟨rfl, Iff.rfl⟩⟩

/-- Whatever is done to the numbers and the time of a session afterwards, it stays settled. -/
theorem Settled.of_same {before opened after : Session} (h : Settled before opened)
    (hcurrent : after.current = opened.current) (hprevious : after.previous = opened.previous)
    (hstatus : after.status = opened.status) : Settled before after := by
  refine ⟨hcurrent.trans h.current, ?_⟩
  rw [hprevious, hstatus]
  exact h.previous

theorem settled_confirmed (session : Session) : Settled session session.confirmed :=
  ⟨rfl, Or.inr ⟨rfl, nofun⟩⟩

theorem settled_restartLogin (session : Session) : Settled session session.restartLogin := by
  rw [restartLogin]
  split
  · refine ⟨rfl, Or.inr ⟨rfl, fun hpending => ?_⟩⟩
    cases hpending
  · exact .refl session

/-- Noting a datagram as sent ends the waiting, which is no pending change. -/
theorem settled_recordSent (session : Session) (bytes : Bytes) :
    Settled session (session.recordSent bytes) := by
  refine ⟨rfl, Or.inl ⟨rfl, ?_⟩⟩
  by_cases hwaiting : session.status = .waiting
  · have hsent : (session.recordSent bytes).status = .sent := if_pos hwaiting
    rw [hsent, hwaiting]
    exact ⟨nofun, nofun⟩
  · have hsame : (session.recordSent bytes).status = session.status := if_neg hwaiting
    rw [hsame]

/-- Harvesting a region moves the client's number and no more. -/
theorem Settled.harvest {before opened : Session} (h : Settled before opened)
    (sequence : UInt16) (region : Bytes) (now : Instant) :
    Settled before ((opened.harvest sequence region).2.touch now) := by
  rcases opened.harvest_snd sequence region with hsame | hmoved
  · rw [hsame]
    exact h.of_same rfl rfl rfl
  · rw [hmoved]
    exact h.of_same rfl rfl rfl

/-! ### Steps -/

/-- Whether a step changes the key: it is the change of key itself, or a datagram after which
the key changed. -/
def Step.rotates (step : Step) : Bool :=
  match step.op, step.outcome with
  | .rotateKey, _ => true
  | _, .assembled (.ok assembled) => assembled.rotated
  | _, _ => false

/-- The number of changes of key along a run. -/
def rotations (book : Code.Book) (session : Session) (ops : List Op) : Nat :=
  (trace book session ops).countP Step.rotates

theorem rotations_cons (book : Code.Book) (session : Session) (op : Op) (rest : List Op) :
    rotations book session (op :: rest) =
      rotations book (session.step book op).after rest +
        if (session.step book op).rotates then 1 else 0 :=
  List.countP_cons

/-- **What a step does to the keys**: it does not change them, or it does so behind something
that does not. -/
theorem keys_step (book : Code.Book) (session : Session) (op : Op) :
    ((session.step book op).rotates = false ∧ Settled session (session.step book op).after) ∨
      ((session.step book op).rotates = true ∧
        ∃ mid, Settled session mid ∧ (session.step book op).after = mid.rotateKey) := by
  cases op with
  | assemble limit timestamp waiting =>
    rw [step_assemble]
    rcases session.assemble_cases book limit timestamp waiting with
      ⟨fault, heq⟩ | ⟨bytes, consumed, zone, -, -, heq⟩
    · rw [heq]
      exact Or.inl ⟨rfl, .refl session⟩
    · rw [heq]
      cases zone with
      | true => exact Or.inr ⟨rfl, _, settled_recordSent session bytes, rfl⟩
      | false => exact Or.inl ⟨rfl, settled_recordSent session bytes⟩
  | rotateKey => exact Or.inr ⟨rfl, session, .refl session, rfl⟩
  | receive pool now datagram =>
    obtain ⟨opened, hopened, hcases⟩ := receive_cases book pool session now datagram
    have hsettled : Settled session opened := by
      rcases hopened with rfl | rfl
      · exact .refl _
      · exact settled_confirmed session
    rw [step_receive]
    rcases hcases with ⟨fault, hresult, hafter⟩ | ⟨header, opening, region, hresult, hafter⟩
    · rw [hresult, hafter]
      exact Or.inl ⟨rfl, hsettled⟩
    · rw [hresult, hafter]
      exact Or.inl ⟨rfl, hsettled.harvest header.sequence region now⟩
  | receiveLogin now datagram login =>
    exact Or.inl ⟨rfl, (Settled.refl session).harvest login.header.sequence _ now⟩
  | decrypt datagram =>
    refine Or.inl ⟨rfl, ?_⟩
    rw [step, Op.apply]
    rcases session.decrypt_cases datagram with ⟨fault, h⟩ | ⟨clear, h⟩ | ⟨clear, h⟩ <;> rw [h]
    · exact .refl session
    · exact settled_confirmed session
    · exact .refl session
  | recordSent bytes => exact Or.inl ⟨rfl, settled_recordSent session bytes⟩
  | resync sequence => exact Or.inl ⟨rfl, (Settled.refl session).of_same rfl rfl rfl⟩
  | restartLogin => exact Or.inl ⟨rfl, settled_restartLogin session⟩
  | advance sequence => exact Or.inl ⟨rfl, (Settled.refl session).of_same rfl rfl rfl⟩
  | touch now => exact Or.inl ⟨rfl, (Settled.refl session).of_same rfl rfl rfl⟩

/-! ### The previous cipher -/

/-- **The previous cipher goes with a pending change**, and its key is the one before the
current one. -/
structure Paired (session : Session) : Prop where
  isSome_iff : session.previous.isSome ↔ session.status = .pending
  incremented_eq : ∀ cipher, session.previous = some cipher →
    cipher.key.incremented = session.current.key

theorem Settled.paired {before after : Session} (h : Settled before after)
    (hbefore : before.Paired) : after.Paired := by
  rcases h.previous with ⟨hprevious, hstatus⟩ | ⟨hprevious, hstatus⟩
  · refine ⟨?_, fun cipher hcipher => ?_⟩
    · rw [hprevious, hstatus]
      exact hbefore.isSome_iff
    · rw [h.current]
      exact hbefore.incremented_eq cipher (hprevious ▸ hcipher)
  · refine ⟨?_, fun cipher hcipher => ?_⟩
    · rw [hprevious]
      exact ⟨nofun, fun hpending => absurd hpending hstatus⟩
    · rw [hprevious] at hcipher
      cases hcipher

/-- A change of key pairs the ciphers, whatever was before. -/
theorem paired_rotateKey (session : Session) : session.rotateKey.Paired where
  isSome_iff := ⟨fun _ => rfl, fun _ => rfl⟩
  incremented_eq cipher hcipher := by
    cases hcipher
    rfl

theorem Paired.step {book : Code.Book} {session : Session} (h : session.Paired) (op : Op) :
    (session.step book op).after.Paired := by
  rcases keys_step book session op with ⟨-, hsettled⟩ | ⟨-, mid, -, hafter⟩
  · exact hsettled.paired h
  · rw [hafter]
    exact paired_rotateKey mid

theorem Reachable.paired {book : Code.Book} {session : Session} (h : Reachable book session) :
    session.Paired :=
  h.induction (fun _ _ _ _ => ⟨⟨nofun, nofun⟩, nofun⟩) fun _ op hpaired => hpaired.step op

/-! ### The current key -/

theorem key_step (book : Code.Book) (session : Session) (op : Op) :
    (session.step book op).after.current.key =
      Cipher.Key.incremented^[if (session.step book op).rotates then 1 else 0]
        session.current.key := by
  rcases keys_step book session op with ⟨hrotates, hsettled⟩ | ⟨hrotates, mid, hsettled, hafter⟩
  · rw [hrotates, hsettled.current]
    rfl
  · rw [hrotates, hafter, current_rotateKey, hsettled.current]
    rfl

/-- **The key at the end of a run** is the first one, incremented once for each change. -/
theorem key_run (book : Code.Book) (session : Session) (ops : List Op) :
    (session.run book ops).current.key =
      Cipher.Key.incremented^[rotations book session ops] session.current.key := by
  induction ops generalizing session with
  | nil => rfl
  | cons op rest ih =>
    rw [run_cons, ih, key_step, ← Function.iterate_add_apply, ← rotations_cons]

theorem rotations_append (book : Code.Book) (session : Session) (ops more : List Op) :
    rotations book session (ops ++ more) =
      rotations book session ops + rotations book (session.run book ops) more := by
  rw [rotations, trace_append, List.countP_append]
  rfl

/-- **The key before**, if there still is one, has seen one change less. -/
theorem previous_run {book : Code.Book} {fresh : Session} (hfresh : fresh.previous = none)
    {ops : List Op} {cipher : KeyedCipher} (h : (fresh.run book ops).previous = some cipher) :
    ∃ count, rotations book fresh ops = count + 1 ∧
      cipher.key = Cipher.Key.incremented^[count] fresh.current.key := by
  induction ops using List.reverseRecOn generalizing cipher with
  | nil =>
    have hnone : fresh.previous = some cipher := h
    rw [hfresh] at hnone
    cases hnone
  | append_singleton ops op ih =>
    have hafter : fresh.run book (ops ++ [op]) = ((fresh.run book ops).step book op).after := by
      rw [run_append]
      rfl
    rw [hafter] at h
    have hcount : rotations book fresh (ops ++ [op]) = rotations book fresh ops +
        if ((fresh.run book ops).step book op).rotates then 1 else 0 := by
      rw [rotations_append, rotations_cons]
      exact congrArg _ (Nat.zero_add _)
    rw [hcount]
    rcases keys_step book (fresh.run book ops) op with
      ⟨hrotates, hsettled⟩ | ⟨hrotates, mid, hsettled, hmid⟩
    · rw [hrotates]
      rcases hsettled.previous with ⟨hsame, -⟩ | ⟨hnone, -⟩
      · exact ih (hsame ▸ h)
      · rw [hnone] at h
        cases h
    · -- the key that was current before this change
      rw [hmid] at h
      obtain rfl : mid.current = cipher := Option.some.inj h
      refine ⟨rotations book fresh ops, by rw [hrotates]; rfl, ?_⟩
      rw [hsettled.current, key_run]

/-! ### Datagrams that change the key -/

/-- The datagrams that are packed along a run, in order. -/
def assemblies (book : Code.Book) (session : Session) (ops : List Op) : List Assembled :=
  (trace book session ops).filterMap (·.outcome.assembled?)

theorem rotates_eq {book : Code.Book} {session : Session} {op : Op} (hop : op ≠ .rotateKey) :
    (session.step book op).rotates =
      (session.step book op).outcome.assembled?.any (·.rotated) := by
  cases op with
  | assemble limit timestamp waiting =>
    rw [step_assemble]
    rcases (session.assemble book limit timestamp waiting).1 with fault | datagram <;> rfl
  | rotateKey => exact absurd rfl hop
  | receive pool now datagram =>
    rw [step_receive]
    rfl
  | receiveLogin | decrypt | recordSent | resync | restartLogin | advance | touch => rfl

/-- **Where nothing else changes the key**, it changes with the datagrams that say so. -/
theorem rotations_eq_countP {book : Code.Book} {session : Session} {ops : List Op}
    (hops : Op.rotateKey ∉ ops) :
    rotations book session ops = (assemblies book session ops).countP (·.rotated) := by
  induction ops generalizing session with
  | nil => rfl
  | cons op rest ih =>
    rw [List.mem_cons, not_or] at hops
    have hrest := @ih (session.step book op).after hops.2
    rw [rotations_cons, hrest, rotates_eq (Ne.symm hops.1), assemblies, assemblies, trace,
      List.filterMap_cons]
    rcases (session.step book op).outcome.assembled? with _ | datagram
    · rfl
    · exact List.countP_cons.symm

/-! ### Which key opens a datagram -/

/-- What decrypting gives was enciphered under the current key or under the previous one. -/
theorem decrypt_eq_ok {session opened : Session} {datagram clear : Bytes} {opening : Opening}
    (h : session.decrypt datagram = (.ok (opening, clear), opened)) :
    ∃ cipher, (cipher = session.current ∨ session.previous = some cipher) ∧
      verifyChecksum (cipher.schedule.decryptPacket headerSize datagram) = true := by
  rw [decrypt_eq] at h
  split at h
  · cases h
  · simp only at h
    split at h
    · exact ⟨session.current, Or.inl rfl, ‹_›⟩
    · split at h
      · cases h
      · rename_i cipher hfallback
        split at h
        · rw [fallback?] at hfallback
          split at hfallback
          · exact ⟨cipher, Or.inr hfallback, ‹_›⟩
          · cases hfallback
        · cases h

/-- **The keys that open a datagram**: of all that a session has had, the datagram's digest holds
under the latest or under the one before it. -/
theorem exists_key_of_receive {book : Code.Book} {address : Address} {character : UInt32}
    {key : Cipher.Key} {began now : Instant} {ops : List Op} {pool : BufferPool}
    {datagram : Bytes} {receipt : Receipt}
    (h : (((start address character key began).run book ops).receive book pool now datagram).1 =
      .ok receipt) :
    ∃ count, (count = rotations book (start address character key began) ops ∨
        count + 1 = rotations book (start address character key began) ops) ∧
      verifyChecksum ((Cipher.Key.incremented^[count] key).schedule.decryptPacket headerSize
        datagram) = true := by
  generalize hfresh : start address character key began = fresh at *
  have hkey : fresh.current.key = key := by rw [← hfresh]; rfl
  have hnone : fresh.previous = none := by rw [← hfresh]; rfl
  have hkeyed : (fresh.run book ops).Keyed :=
    Reachable.keyed ⟨address, character, key, began, ops, by rw [hfresh]⟩
  obtain ⟨cipher, hcipher, hverify⟩ :
      ∃ cipher, (cipher = (fresh.run book ops).current ∨
          (fresh.run book ops).previous = some cipher) ∧
        verifyChecksum (cipher.schedule.decryptPacket headerSize datagram) = true := by
    rw [receive] at h
    simp only at h
    split at h
    · cases h
    · rcases hdecrypt : (fresh.run book ops).decrypt datagram with
        ⟨fault | ⟨opening, clear⟩, opened⟩
      · rw [hdecrypt] at h
        cases h
      · exact decrypt_eq_ok hdecrypt
  rcases hcipher with rfl | hprevious
  · refine ⟨_, Or.inl rfl, ?_⟩
    rw [← hkey, ← key_run]
    rw [hkeyed.1] at hverify
    exact hverify
  · obtain ⟨count, hcount, hincremented⟩ := previous_run hnone hprevious
    refine ⟨count, Or.inr hcount.symm, ?_⟩
    rw [← hkey, ← hincremented]
    rw [hkeyed.2 cipher hprevious] at hverify
    exact hverify

/-! ### The main statement -/

/-- **The keys of a session.** Along any run from a login with a key, whatever datagrams are
packed, opened or refused in it, there is a previous cipher exactly while a change of key is
pending, and incrementing its key gives the current one; both ciphers have the schedules of
their keys; and the words of the current key are those of the first, the last of them increased
by twice the number of changes. Within fewer than `2 ^ 31` further changes the key does not
come back. -/
theorem keys_of_run (book : Code.Book) (address : Address) (character : UInt32)
    (key : Cipher.Key) (now : Instant) (ops : List Op) :
    let fresh := start address character key now
    let session := fresh.run book ops
    (session.previous.isSome ↔ session.status = .pending) ∧
      (∀ cipher, session.previous = some cipher →
        cipher.key.incremented = session.current.key) ∧
      session.current = .ofKey session.current.key ∧
      (∀ cipher, session.previous = some cipher → cipher = .ofKey cipher.key) ∧
      session.current.key.words =
        key.words.set 4 (key.words[4] + 2 * UInt32.ofNat (rotations book fresh ops)) ∧
      ∀ more, 0 < rotations book session more → rotations book session more < 2 ^ 31 →
        (session.run book more).current.key ≠ session.current.key := by
  intro fresh session
  have hreachable : Reachable book session := ⟨address, character, key, now, ops, rfl⟩
  obtain ⟨hpending, hnext⟩ := hreachable.paired
  obtain ⟨hcurrent, hprevious⟩ := hreachable.keyed
  refine ⟨hpending, hnext, hcurrent, hprevious, ?_, fun more hpos hlt => ?_⟩
  · have hkey : session.current.key =
        Cipher.Key.incremented^[rotations book fresh ops] key := key_run book fresh ops
    rw [hkey, Cipher.Key.words_iterate_incremented]
  · rw [key_run]
    exact session.current.key.iterate_incremented_ne hpos hlt

/-- A key whose last word is about to wrap. -/
def fullKey : Cipher.Key := .ofWords #v[1, 2, 3, 4, 0xFFFFFFFF]

/-- Two changes of key with a repeated login in between, which gives up the first one. -/
def givenUp : List Op := [.rotateKey, .restartLogin, .resync 7, .rotateKey]

/-- The last word of the key wraps, and one more change gives another key. -/
theorem keys_of_run_givenUp : ∃ book session, Code.Lengths.standard.book = .ok book ∧
    session = (start (.v4 127 0 0 1 5000) 7 fullKey 0).run book givenUp ∧
    session.status = .pending ∧ session.previous.isSome ∧
    session.current.key.words = #v[1, 2, 3, 4, 3] ∧
    rotations book session [.recordSent [1], .rotateKey] = 1 ∧
    (session.run book [.recordSent [1], .rotateKey]).current.key ≠ session.current.key := by
  obtain ⟨book, hbook, -⟩ := Code.Lengths.standard.exists_book
  obtain ⟨hpending, -, -, -, hwords, hnew⟩ :=
    keys_of_run book (.v4 127 0 0 1 5000) 7 fullKey 0 givenUp
  have hcount : rotations book (start (.v4 127 0 0 1 5000) 7 fullKey 0) givenUp = 2 := rfl
  have hmore : rotations book ((start (.v4 127 0 0 1 5000) 7 fullKey 0).run book givenUp)
      [.recordSent [1], .rotateKey] = 1 := rfl
  refine ⟨book, _, hbook, rfl, rfl, hpending.mpr rfl, ?_, hmore, hnew _ ?_ ?_⟩
  · rw [hwords, hcount, fullKey, Cipher.Key.words_ofWords]
    decide
  · rw [hmore]
    decide
  · rw [hmore]
    decide

end Session

end ZoneRelay
