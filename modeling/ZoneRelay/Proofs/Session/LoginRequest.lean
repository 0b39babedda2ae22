import ZoneRelay.Proofs.Frame.Front
import ZoneRelay.Proofs.Frame.Seal
import ZoneRelay.Proofs.Session.Run

/-!
# Two readers of a login

A login datagram is read twice. First as a login (`ZoneRelay.Login.parse?`), which looks at fixed
offsets behind the header and asks for `0x5C` bytes there; then as a region
(`ZoneRelay.Session.receiveLogin`), which is taken apart by the lengths that its sub-packets declare.
**The first reader does not look at the declared length.**

| declared length | the first sub-packet of the region | what is forwarded |
|---|---|---|
| zero | none, the region ends there | nothing |
| below `0x5C` | a request cut short | its beginning, then what is read behind it |
| from `0x5C` on | a request, of as many bytes as are there | the whole request first |

On the type and the sync value the two agree. So an accepted login contains a request of the size of
one exactly if its size field says so (`ZoneRelay.Session.accepted_login_iff`). That of a client's
own login says `0x5C` (`ZoneRelay.Login.declared_request`), but one with a size of zero is
accepted as well, and then nobody hears of it (`ZoneRelay.Session.unsized_login_unheard`).
-/

namespace ZoneRelay

open ZoneRelay.Frame

/-! ### The region of a login -/

namespace Frame

/-- **A region begins with a login request** under a number if the sub-packet in front is one, with
no fewer bytes than a request has. -/
def BeginsWithRequest (region : Bytes) (sequence : UInt16) : Prop :=
  ∃ raw rest, (demux region).1 = raw :: rest ∧ raw.kind = loginType ∧ raw.sequence = sequence ∧
    Login.requestSize ≤ raw.bytes.length

end Frame

namespace Login

/-! ### The first reader -/

/-- **What makes a datagram a login**: the digest holds in the clear, and behind the header are the
type, the size, and the sum of a request. -/
theorem parse?_eq_some_iff {datagram : Bytes} {login : Login} :
    parse? datagram = .ok (some login) ↔
      verifyChecksum datagram = true ∧ requestSize ≤ (body datagram).length ∧
        Bytes.u16At (body datagram) 0 &&& typeMask = loginType ∧
        requestSum (body datagram) = Bytes.byteAt (body datagram) 4 ∧
        Header.ofDatagram datagram = .ok login.header ∧
        login.character = Bytes.u32At (body datagram) 12 ∧
        login.sync = Bytes.u16At (body datagram) 2 := by
  simp only [parse?]
  constructor
  · intro h
    split at h
    case isTrue => cases h
    case isFalse hverify =>
    split at h
    case isTrue => cases h
    split at h
    case isTrue => cases h
    case isFalse hkind =>
    split at h
    case isTrue => cases h
    case isFalse hlong =>
    split at h
    case isTrue => cases h
    case isFalse hsum =>
    rcases hheader : Header.ofDatagram datagram with fault | header
    · rw [hheader] at h
      cases h
    · rw [hheader] at h
      cases h
      exact ⟨by simpa using hverify, Nat.le_of_not_lt hlong, Decidable.not_not.mp hkind,
        Decidable.not_not.mp hsum, rfl, rfl, rfl⟩
  · rintro ⟨hverify, hlong, hkind, hsum, hheader, hcharacter, hsync⟩
    have htwo : ¬ (body datagram).length < 2 := by
      rw [requestSize] at hlong
      omega
    rw [hverify, if_neg (by decide), if_neg htwo, if_neg (Decidable.not_not.mpr hkind),
      if_neg (Nat.not_lt.mpr hlong), if_neg (Decidable.not_not.mpr hsum), hheader, ← hcharacter,
      ← hsync]
    rfl

/-! ### The client's own login -/

/-- What stands between a header and the digest is the body. -/
theorem body_append (header : Header) (body : Bytes) :
    Login.body (header.toBytes ++ body ++ Digest.md5 body) = body := by
  have hsplit : (header.toBytes ++ body ++ Digest.md5 body).length - checksumSize =
      (header.toBytes ++ body).length := by
    rw [List.length_append, Digest.length_md5, checksumSize, Nat.add_sub_cancel]
  have hheader : header.toBytes.length = headerSize := header.length_toBytes
  rw [Login.body, hsplit, List.take_left, ← hheader, List.drop_left]

@[simp] theorem length_request (character : UInt32) (sync : UInt16) :
    (request character sync).length = requestSize := by
  simp [request, requestSize]

/-- A request declares its own size, whatever follows it. -/
theorem declared_request (character : UInt32) (sync : UInt16) (extra : Bytes) :
    declared (request character sync ++ extra) = requestSize := by
  have hbyte : Bytes.byteAt (request character sync ++ extra) 1 = 0x2E := rfl
  rw [declared, hbyte]
  rfl

/-- A request is of login type, whatever follows it. -/
theorem kind_request (character : UInt32) (sync : UInt16) (extra : Bytes) :
    Bytes.u16At (request character sync ++ extra) 0 &&& typeMask = loginType := by
  have hbytes : Bytes.u16At (request character sync ++ extra) 0 = Bytes.u16 0x0A 0x2E := rfl
  rw [hbytes]
  decide

/-- A request states its sync value, whatever follows it. -/
theorem sync_request (character : UInt32) (sync : UInt16) (extra : Bytes) :
    Bytes.u16At (request character sync ++ extra) 2 = sync :=
  Bytes.u16_ofU16 sync

/-- A request states its sum, whatever follows it. -/
theorem requestSum_request (character : UInt32) (sync : UInt16) (extra : Bytes) :
    requestSum (request character sync ++ extra) =
      Bytes.byteAt (request character sync ++ extra) 4 := by
  rw [requestSum, List.take_left' (length_request character sync), request]
  -- what is summed up is the same on both sides, so it need not be looked at
  generalize Bytes.zeros 4 ++ Bytes.ofU32 character ++ Bytes.zeros 76 = tail
  rfl

/-- A request states its character, whatever follows it. -/
theorem u32At_request (character : UInt32) (sync : UInt16) (extra : Bytes) :
    Bytes.u32At (request character sync ++ extra) 12 = character := by
  rw [request]
  generalize Bytes.sum8 (Bytes.zeros 4 ++ Bytes.ofU32 character ++ Bytes.zeros 76) = sum
  have hsplit : [0x0A, 0x2E] ++ Bytes.ofU16 sync ++ [sum, 0, 0, 0] ++
      (Bytes.zeros 4 ++ Bytes.ofU32 character ++ Bytes.zeros 76) ++ extra =
        ([0x0A, 0x2E] ++ Bytes.ofU16 sync ++ [sum, 0, 0, 0] ++ Bytes.zeros 4) ++
          (Bytes.ofU32 character ++ (Bytes.zeros 76 ++ extra)) := by
    simp only [List.append_assoc]
  rw [hsplit]
  exact Bytes.u32At_append _ _ character

/-- **The login that a client sends is read as what it says**, whatever follows the request. -/
theorem parse?_datagram (character : UInt32) (sync sequence : UInt16) (extra : Bytes) :
    parse? (datagram character sync sequence extra) =
      .ok (some ⟨⟨sequence, 0, 0⟩, character, sync⟩) := by
  have hbody : body (datagram character sync sequence extra) = request character sync ++ extra :=
    body_append _ _
  rw [parse?_eq_some_iff, hbody, sync_request]
  refine ⟨verifyChecksum_append_md5 (Header.length_toBytes _) _, ?_,
    kind_request character sync extra, requestSum_request character sync extra, ?_,
    (u32At_request character sync extra).symm, rfl⟩
  · rw [List.length_append, length_request]
    exact Nat.le_add_right _ _
  · rw [datagram, List.append_assoc]
    exact Header.ofDatagram_append _ _

end Login

/-! ### The second reader -/

namespace Session

/-- **A sub-packet of login type in front** comes first in what is harvested, and what is behind it
is judged by the session as it was before. -/
theorem harvest_behind_login (session : Session) (sequence : UInt16) {region : Bytes}
    {raw : RawPacket} {rest : List RawPacket} (hdemux : (demux region).1 = raw :: rest)
    (hkind : raw.kind = loginType) :
    session.harvest sequence region =
      (⟨raw.toSubPacket :: (rest.filter (session.accepts sequence)).map (·.toSubPacket),
        (rest.filter fun other => !session.accepts sequence other).length, (demux region).2⟩,
        session.advance sequence) := by
  have haccepts : session.accepts sequence raw = true := by
    rw [accepts, hkind]
    rfl
  rw [harvest_eq, hdemux]
  simp only [List.filter_cons, haccepts, Bool.not_true, Bool.false_eq_true, if_true, if_false,
    List.map_cons, reduceCtorEq]

/-- **A sub-packet of login type in front is forwarded first**, whatever its number, and moves the
client's number. -/
theorem harvest_login (session : Session) (sequence : UInt16) {region : Bytes} {raw : RawPacket}
    {rest : List RawPacket} (hdemux : (demux region).1 = raw :: rest)
    (hkind : raw.kind = loginType) :
    (∃ more, (session.harvest sequence region).1.packets = raw.toSubPacket :: more) ∧
      (session.harvest sequence region).2 = session.advance sequence := by
  rw [harvest_behind_login session sequence hdemux hkind]
  exact ⟨⟨_, rfl⟩, rfl⟩

/-- **An accepted login contains a login request exactly if its size field says so.** Take any
datagram that is read as a login, and the length that the first sub-packet of its region declares.

* The region begins with a request under the sync value just where `0x5C` bytes or more are
  declared.
* Where no length is declared, the login is taken note of and nothing is forwarded.
* Else a sub-packet of login type comes first in what is forwarded, with the bytes that are there of
  the declared length, and the client's number moves to the datagram's. -/
theorem accepted_login_iff {datagram : Bytes} {login : Login}
    (h : Login.parse? datagram = .ok (some login)) (session : Session) (now : Instant) :
    (BeginsWithRequest (Login.body datagram) login.sync ↔
        Login.requestSize ≤ declared (Login.body datagram)) ∧
      (declared (Login.body datagram) = 0 → session.receiveLogin now datagram login =
        (⟨login.header, .login, [], 0, .complete, none⟩, session.touch now)) ∧
      (declared (Login.body datagram) ≠ 0 →
        (∃ more, (session.receiveLogin now datagram login).1.packets =
          ⟨loginType, login.sync, ((Login.body datagram).take
            (declared (Login.body datagram))).drop subHeaderSize⟩ :: more) ∧
        (session.receiveLogin now datagram login).2 =
          (session.advance login.header.sequence).touch now) := by
  obtain ⟨-, hlong, hkind, -, -, -, hsync⟩ := Login.parse?_eq_some_iff.mp h
  have hfour : subHeaderSize ≤ (Login.body datagram).length := Nat.le_trans (by decide) hlong
  have hfront := front_login hfour hkind
  rw [← hsync] at hfront
  by_cases hzero : declared (Login.body datagram) = 0
  · rw [if_pos hzero] at hfront
    have hdemux := demux_stop hfront
    refine ⟨?_, ?_, fun hsome => absurd hzero hsome⟩
    · rw [hzero]
      constructor
      · rintro ⟨raw, rest, hfirst, -⟩
        rw [hdemux] at hfirst
        cases hfirst
      · intro hle
        exact absurd hle (by decide)
    · intro _
      rw [receiveLogin_eq, receipt, harvest_eq, hdemux]
      rfl
  · rw [if_neg hzero] at hfront
    have hdemux := congrArg Prod.fst (demux_packet hfront)
    refine ⟨?_, fun hnone => absurd hnone hzero, fun _ => ?_⟩
    · constructor
      · rintro ⟨raw, rest, hfirst, -, -, hsize⟩
        rw [hdemux] at hfirst
        cases hfirst
        exact Nat.le_trans hsize (List.length_take_le _ _)
      · intro hle
        refine ⟨_, _, hdemux, rfl, rfl, ?_⟩
        rw [List.length_take]
        exact Nat.le_min.mpr ⟨hle, hlong⟩
    · obtain ⟨hfirst, hmoved⟩ := harvest_login session login.header.sequence hdemux rfl
      rw [receiveLogin_eq, hmoved]
      exact ⟨hfirst, rfl⟩

/-- The login that a client sends contains a request, which is forwarded. -/
theorem accepted_login_datagram : ∃ datagram login session after,
    Login.parse? datagram = .ok (some login) ∧ login = ⟨⟨5, 0, 0⟩, 7, 5⟩ ∧
    session = start (.v4 127 0 0 1 5000) 7 (.ofText "secret") 0 ∧
    declared (Login.body datagram) = 0x5C ∧ BeginsWithRequest (Login.body datagram) 5 ∧
    (∃ payload more, (session.receiveLogin 0 datagram login).1.packets =
      ⟨loginType, 5, payload⟩ :: more) ∧
    (session.receiveLogin 0 datagram login).2 = after ∧ after.clientSequence = 5 := by
  have hparse := Login.parse?_datagram 7 5 5 []
  let session := start (.v4 127 0 0 1 5000) 7 (.ofText "secret") 0
  have hbody : Login.body (Login.datagram 7 5 5 []) = Login.request 7 5 ++ [] :=
    Login.body_append _ _
  have hdeclared : declared (Login.body (Login.datagram 7 5 5 [])) = Login.requestSize := by
    rw [hbody]
    exact Login.declared_request 7 5 []
  obtain ⟨hiff, -, hheard⟩ := accepted_login_iff hparse session 0
  obtain ⟨⟨more, hpackets⟩, hafter⟩ := hheard (by rw [hdeclared]; decide)
  refine ⟨_, _, session, _, hparse, rfl, rfl, hdeclared, ?_, ⟨_, more, hpackets⟩, hafter, rfl⟩
  exact hiff.mpr (Nat.le_of_eq hdeclared.symm)

/-- The body of a login that declares no length. -/
def unsizedBody : Bytes := [0x0A, 0] ++ (Login.request 7 5).drop 2

/-- Such a login, with the digest that belongs to it. -/
def unsizedLogin : Bytes := (Header.mk 5 0 0).toBytes ++ unsizedBody ++ Digest.md5 unsizedBody

/-- **A login that declares no length is accepted and not heard of**: its region has no sub-packet,
so no session forwards anything of it. -/
theorem unsized_login_unheard :
    Login.parse? unsizedLogin = .ok (some ⟨⟨5, 0, 0⟩, 7, 5⟩) ∧
      demux (Login.body unsizedLogin) = ([], .complete) ∧
      ¬ BeginsWithRequest (Login.body unsizedLogin) 5 ∧
      ∀ (session : Session) (now : Instant),
        (session.receiveLogin now unsizedLogin ⟨⟨5, 0, 0⟩, 7, 5⟩).1.packets = [] := by
  have hbody : Login.body unsizedLogin = unsizedBody := Login.body_append _ _
  have hdemux : demux (Login.body unsizedLogin) = ([], .complete) := by
    rw [hbody]
    exact demux_stop (by decide)
  refine ⟨?_, hdemux, ?_, ?_⟩
  · rw [Login.parse?_eq_some_iff, hbody]
    refine ⟨verifyChecksum_append_md5 (Header.length_toBytes _) _, by decide, by decide,
      by decide +kernel, ?_, by decide, by decide⟩
    rw [unsizedLogin, List.append_assoc]
    exact Header.ofDatagram_append _ _
  · rintro ⟨raw, rest, hfirst, -⟩
    rw [hdemux] at hfirst
    cases hfirst
  · intro session now
    rw [receiveLogin_eq, receipt, harvest_eq, hdemux]
    rfl

end Session

end ZoneRelay
