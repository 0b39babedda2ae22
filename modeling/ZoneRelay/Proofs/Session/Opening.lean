import ZoneRelay.Proofs.Session.Rotation

/-!
# Which key opens a datagram

A session has one key, or two while a change is pending, and a datagram does not say under which
of them it was made. So the relay tries: the current key first, in the buffer that the datagram
lies in, and where its digest does not hold then, the key before, on a copy. Of that there are
three ways to go (`ZoneRelay.Session.Tried`).

| the datagram opens | outcome | the buffer afterwards | the session afterwards |
|---|---|---|---|
| under the current key | the current one | read under the current key | confirmed |
| not so, but under the one before a pending change | the previous one | read under that one | the same |
| under neither | a fault | read under the current key | the same |

**The outcome is exactly the first of these that applies**
(`ZoneRelay.Session.decrypt_decides`). What the first attempt leaves in the buffer does not
disturb the second one, since a copy is taken whenever there is a second key. In a reachable
session there is one precisely while a change is pending (`ZoneRelay.Session.Paired`), and the
ciphers are those of the keys (`ZoneRelay.Session.Keyed`), so all of it can be said of keys. The
header is in the clear under every key and stays as it is.
-/

namespace ZoneRelay

namespace Session

open ZoneRelay.Frame

/-! ### Reading under a key -/

/-- A datagram read under a key: what follows its header is deciphered. -/
def readUnder (key : Cipher.Key) (datagram : Bytes) : Bytes :=
  key.schedule.decryptPacket headerSize datagram

/-- **A key opens a datagram** if, read under it, the digest at the end of the datagram holds. -/
def Opens (key : Cipher.Key) (datagram : Bytes) : Prop :=
  verifyChecksum (readUnder key datagram) = true

@[simp] theorem length_readUnder (key : Cipher.Key) (datagram : Bytes) :
    (readUnder key datagram).length = datagram.length :=
  key.schedule.length_decryptPacket headerSize datagram

/-- Whatever key a datagram is read under, its header is the same. -/
theorem take_readUnder (key : Cipher.Key) {datagram : Bytes}
    (hlong : headerSize ≤ datagram.length) :
    (readUnder key datagram).take headerSize = datagram.take headerSize :=
  Cipher.take_onRegion _ hlong

/-- Read under the key that it was enciphered with, a datagram is what it was. -/
theorem readUnder_encryptPacket (key : Cipher.Key) (clear : Bytes) :
    readUnder key (key.schedule.encryptPacket headerSize clear) = clear :=
  key.schedule.decryptPacket_encryptPacket headerSize clear

/-! ### Trying the keys -/

/-- **The ways in which the keys of a session can be tried** on a datagram: the outcome, the
buffer and the session that come of it. -/
inductive Tried (session : Session) (datagram : Bytes) :
    Except Fault Opening × Bytes × Session → Prop
  /-- The current key opens the datagram, and a pending change is over. -/
  | current (hopens : Opens session.current.key datagram) :
    Tried session datagram
      (.ok .current, readUnder session.current.key datagram, session.confirmed)
  /-- The current key does not open the datagram, but the one before a pending change does. -/
  | previous {cipher : KeyedCipher} (hnot : ¬ Opens session.current.key datagram)
    (hpending : session.status = .pending) (hprevious : session.previous = some cipher)
    (hopens : Opens cipher.key datagram) :
    Tried session datagram (.ok .previous, readUnder cipher.key datagram, session)
  /-- No key of the session opens the datagram, and the buffer stays as the first attempt left
  it. -/
  | neither (hnot : ¬ Opens session.current.key datagram)
    (hother : ∀ cipher, session.status = .pending → session.previous = some cipher →
      ¬ Opens cipher.key datagram) :
    Tried session datagram
      (.error .decryptionFailure, readUnder session.current.key datagram, session)

/-- **Decrypting tries the keys of the session** in one of these ways. -/
theorem tried_decryptInPlace {session : Session} (hkeyed : session.Keyed) {datagram : Bytes}
    (hlong : headerSize < datagram.length) :
    Tried session datagram (session.decryptInPlace datagram) := by
  have hcurrent : session.current.schedule.decryptPacket headerSize datagram =
      readUnder session.current.key datagram := by
    rw [readUnder]
    exact congrArg (·.schedule.decryptPacket headerSize datagram) hkeyed.1
  have hprevious : ∀ cipher, session.previous = some cipher →
      cipher.schedule.decryptPacket headerSize datagram = readUnder cipher.key datagram := by
    intro cipher h
    rw [readUnder]
    exact congrArg (·.schedule.decryptPacket headerSize datagram) (hkeyed.2 cipher h)
  simp only [decryptInPlace, if_neg (Nat.not_le.mpr hlong), hcurrent]
  by_cases hopens : verifyChecksum (readUnder session.current.key datagram) = true
  · rw [if_pos hopens]
    exact .current hopens
  · rw [if_neg hopens]
    rcases hcipher : session.previous with _ | cipher
    · refine .neither hopens fun cipher _ h => ?_
      rw [hcipher] at h
      cases h
    · -- the copy is there under the same condition under which the key before counts
      by_cases hpending : session.status = .pending
      · simp only [fallback?, if_pos hpending, hcipher, Option.map_some, hprevious cipher hcipher]
        by_cases hother : verifyChecksum (readUnder cipher.key datagram) = true
        · rw [if_pos hother]
          exact .previous hopens hpending hcipher hother
        · rw [if_neg hother]
          refine .neither hopens fun other _ h => ?_
          rw [hcipher] at h
          cases h
          exact hother
      · simp only [fallback?, if_neg hpending, Option.map_none]
        exact .neither hopens fun _ h => absurd h hpending

/-! ### The main statement -/

/-- **Decrypting decides which key opens a datagram**, and leaves it in the buffer. Take any
session that a run can lead to and any datagram longer than a header. The outcome names the
current key exactly if that one opens the datagram; it names the previous key exactly if the
current one does not open it, a change is pending, and the key before opens it as it came; else
it is the fault of a decryption. The buffer then holds the datagram read under the key that the
outcome names. Opening under the current key drops the previous cipher and accepts the session;
every other outcome leaves the session as it was. And in every case the buffer keeps its length
and its header. -/
theorem decrypt_decides {book : Code.Book} {session : Session} (h : Reachable book session)
    {datagram : Bytes} (hlong : headerSize < datagram.length) :
    ∃ result buffer after, session.decryptInPlace datagram = (result, buffer, after) ∧
      (result = .ok .current ↔ Opens session.current.key datagram) ∧
      (result = .ok .previous ↔ ¬ Opens session.current.key datagram ∧
        session.status = .pending ∧
        ∃ cipher, session.previous = some cipher ∧ Opens cipher.key datagram) ∧
      (result ≠ .ok .current → result ≠ .ok .previous → result = .error .decryptionFailure) ∧
      (result = .ok .current → buffer = readUnder session.current.key datagram) ∧
      (result = .ok .previous → ∃ cipher, session.previous = some cipher ∧
        buffer = readUnder cipher.key datagram) ∧
      (result = .ok .current → after = { session with previous := none, status := .accepted }) ∧
      (result ≠ .ok .current → after = session) ∧
      buffer.take headerSize = datagram.take headerSize ∧ buffer.length = datagram.length := by
  have htake : ∀ key, (readUnder key datagram).take headerSize = datagram.take headerSize :=
    fun key => take_readUnder key hlong.le
  rcases hdecrypt : session.decryptInPlace datagram with ⟨result, buffer, after⟩
  refine ⟨result, buffer, after, rfl, ?_⟩
  -- a reachable session has the ciphers of its keys
  have htried : Tried session datagram (result, buffer, after) :=
    hdecrypt ▸ tried_decryptInPlace h.keyed hlong
  cases htried with
  | current hopens =>
    refine ⟨⟨fun _ => hopens, fun _ => rfl⟩, ⟨nofun, fun hnot => absurd hopens hnot.1⟩,
      fun hne _ => absurd rfl hne, fun _ => rfl, nofun, fun _ => rfl, fun hne => absurd rfl hne,
      htake _, length_readUnder _ _⟩
  | @previous cipher hnot hpending hprevious hopens =>
    refine ⟨⟨nofun, fun hopens => absurd hopens hnot⟩,
      ⟨fun _ => ⟨hnot, hpending, cipher, hprevious, hopens⟩, fun _ => rfl⟩,
      fun _ hne => absurd rfl hne, nofun, fun _ => ⟨cipher, hprevious, rfl⟩, nofun, fun _ => rfl,
      htake _, length_readUnder _ _⟩
  | neither hnot hother =>
    refine ⟨⟨nofun, fun hopens => absurd hopens hnot⟩, ⟨nofun, ?_⟩, fun _ _ => rfl, nofun, nofun,
      nofun, fun _ => rfl, htake _, length_readUnder _ _⟩
    rintro ⟨-, hpending, cipher, hprevious, hopens⟩
    exact absurd hopens (hother cipher hpending hprevious)

/-- A session whose key has changed twice, with a datagram of the client under its latest key. -/
theorem decrypt_decides_confirmed : ∃ book session datagram,
    Code.Lengths.standard.book = .ok book ∧
    session = (start (.v4 127 0 0 1 5000) 7 (.ofText "secret") 0).run book
      [.rotateKey, .recordSent [1], .rotateKey] ∧
    Reachable book session ∧ headerSize < datagram.length ∧ session.status = .pending ∧
    ∃ clear, session.decryptInPlace datagram =
      (.ok .current, clear, { session with previous := none, status := .accepted }) ∧
      clear = (Header.mk 1 0 0).toBytes ++ sealed [1] 8 ∧
      clear.take headerSize = datagram.take headerSize := by
  obtain ⟨book, hbook, -⟩ := Code.Lengths.standard.exists_book
  let session := (start (.v4 127 0 0 1 5000) 7 (.ofText "secret") 0).run book
    [.rotateKey, .recordSent [1], .rotateKey]
  let clear := (Header.mk 1 0 0).toBytes ++ sealed [1] 8
  let datagram := session.current.key.schedule.encryptPacket headerSize clear
  have hreachable : Reachable book session := ⟨_, _, _, _, _, rfl⟩
  have hlong : headerSize < datagram.length := by
    rw [Cipher.Schedule.length_encryptPacket, List.length_append, Header.length_toBytes,
      length_sealed]
    decide
  have hread : readUnder session.current.key datagram = clear := readUnder_encryptPacket _ clear
  have hopens : Opens session.current.key datagram := by
    rw [Opens, hread]
    exact verifyChecksum_sealed (Header.length_toBytes _) [1] 8
  obtain ⟨result, buffer, after, htried, hcurrent, -, -, hbuffer, -, hafter, -, htake, -⟩ :=
    decrypt_decides hreachable hlong
  have hresult := hcurrent.mpr hopens
  refine ⟨book, session, datagram, hbook, rfl, hreachable, hlong, rfl, buffer, ?_, ?_, htake⟩
  · rw [htried, hresult, hafter hresult]
  · rw [hbuffer hresult, hread]

end Session

end ZoneRelay
