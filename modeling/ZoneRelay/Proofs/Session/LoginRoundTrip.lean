import ZoneRelay.Proofs.Session.LoginRequest

/-!
# What a client's login brings

A client's login datagram holds one request, and behind it whatever else the client has to say.
Nothing is known of these bytes: they may hold sub-packets of any kind, more requests among them,
or none at all, and end anywhere.

They change nothing about the request. Its size is declared in front of it, its sum does not reach
behind it, and the digest is taken of all together; so the datagram is read as the login it is
(`ZoneRelay.Login.parse?_datagram`), and its region is the request in front of what the other bytes
hold on their own (`ZoneRelay.Login.demux_request`).

And **the request does not open the window for them**. It moves the client's number, but each
sub-packet behind it is judged by the number from before. What comes of a login is therefore an
equation without a choice in it (`ZoneRelay.Session.login_round_trip`).
-/

namespace ZoneRelay

open ZoneRelay.Frame

namespace Login

/-- **A request stands in front of what the other bytes hold on their own.** -/
theorem demux_request (character : UInt32) (sync : UInt16) (extra : Bytes) :
    demux (request character sync ++ extra) =
      (⟨loginType, sync, request character sync⟩ :: (demux extra).1, (demux extra).2) := by
  have hlength := length_request character sync
  have hlong : subHeaderSize ≤ (request character sync ++ extra).length := by
    rw [List.length_append, hlength]
    exact Nat.le_trans (by decide) (Nat.le_add_right _ _)
  have hfront := front_login hlong (kind_request character sync extra)
  rw [declared_request, if_neg (by decide), sync_request, List.take_left' hlength] at hfront
  have hdemux := demux_packet hfront
  rwa [List.drop_left' rfl] at hdemux

end Login

namespace Session

/-- What is accepted is of login type, or has a number in the window. -/
theorem accepts_eq_decide (session : Session) (sequence : UInt16) :
    session.accepts sequence = fun raw => decide (raw.kind = loginType ∨
      session.clientSequence < raw.sequence ∧ raw.sequence ≤ sequence) := by
  ext raw
  rw [accepts, inWindow, Bool.decide_or, Bool.decide_and]
  rfl

/-- **A client's login comes to what it says**, for any character, sync value and sequence number,
any bytes behind the request, and any session.

* It is read as a login with that header, character and sync value.
* Taken apart, it brings the request first, with its 88 bytes of payload and the sync value for a
  number. Then come those of the sub-packets in the other bytes that are of login type, or have a
  number above the last of the client and not above the datagram's; the others are counted. The
  ending is that of the other bytes on their own.
* Of the session only the client's number changes, to the datagram's unless it is ahead of that, and
  the time when the client was heard. -/
theorem login_round_trip (session : Session) (now : Instant) (character : UInt32)
    (sync sequence : UInt16) (extra : Bytes) :
    Login.parse? (Login.datagram character sync sequence extra) =
      .ok (some ⟨⟨sequence, 0, 0⟩, character, sync⟩) ∧
    ∃ payload, payload.length = 88 ∧
      session.receiveLogin now (Login.datagram character sync sequence extra)
          ⟨⟨sequence, 0, 0⟩, character, sync⟩ =
        ({ header := ⟨sequence, 0, 0⟩
           kind := .login
           packets := ⟨loginType, sync, payload⟩ :: ((demux extra).1.filter fun raw =>
             raw.kind = loginType ∨
               session.clientSequence < raw.sequence ∧ raw.sequence ≤ sequence).map
             RawPacket.toSubPacket
           skipped := ((demux extra).1.filter fun raw => ¬ (raw.kind = loginType ∨
             session.clientSequence < raw.sequence ∧ raw.sequence ≤ sequence)).length
           ending := (demux extra).2
           resend := none },
         { session with
           clientSequence := max session.clientSequence sequence
           lastActive := now }) := by
  have hbody : Login.body (Login.datagram character sync sequence extra) =
      Login.request character sync ++ extra := Login.body_append _ _
  have hdemux := Login.demux_request character sync extra
  have hharvest := session.harvest_behind_login sequence (congrArg Prod.fst hdemux) rfl
  rw [hdemux] at hharvest
  refine ⟨Login.parse?_datagram character sync sequence extra,
    (Login.request character sync).drop subHeaderSize, ?_, ?_⟩
  · rw [List.length_drop, Login.length_request]
    rfl
  · -- the request moves the number of the session, and the others are judged by the one before
    rw [receiveLogin_eq, receipt, hbody, hharvest]
    simp only [accepts_eq_decide, decide_not]
    rfl

end Session

end ZoneRelay
