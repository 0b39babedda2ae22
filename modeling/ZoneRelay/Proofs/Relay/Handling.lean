import ZoneRelay.Proofs.Relay.World
import ZoneRelay.Proofs.Session.Run
import ZoneRelay.Proofs.Session.Table

/-!
# Handling a datagram

A datagram is accepted or not, and what it brought is published only if the last datagram can be
sent again to a client that asks for it. So handling has three courses.

| course | theorem |
|---|---|
| the datagram is not accepted | `ZoneRelay.Relay.perform_handle_error` |
| it is, and the last datagram cannot be sent again | `ZoneRelay.Relay.perform_handle_refused` |
| it is, and what it brought is published | `ZoneRelay.Relay.perform_handle_ok` |

The first does nothing to the world, the second writes one datagram, and the third may write that
datagram and offers every packet to the bus. An encrypted datagram is accepted if the session of its
sender receives it (`ZoneRelay.Relay.accept_eq_ok`), and not if it does not
(`ZoneRelay.Relay.accept_eq_error`).
-/

namespace ZoneRelay

open ZoneRelay.Frame

namespace Session

/-- Whatever a datagram holds, receiving it leaves a session its address and its character. -/
theorem identity_receive (book : Code.Book) (pool : BufferPool) (session : Session)
    (now : Instant) (datagram : Bytes) :
    (session.receive book pool now datagram).2.1.address = session.address ∧
      (session.receive book pool now datagram).2.1.character = session.character := by
  have hidentity := identity_step book session (.receive pool now datagram)
  rwa [step_receive] at hidentity

end Session

namespace Relay

open World

variable {world : World} {relay after : Relay} {clock : Clock} {client : Address}
  {datagram : Bytes} {arrival : Arrival}

/-! ### The courses of handling -/

/-- A datagram that is not accepted does nothing to the world. -/
theorem perform_handle_error {fault : Fault}
    (h : relay.accept clock client datagram = (.error fault, after)) (journal : Journal) :
    perform (relay.handle world.outlets clock client datagram) journal =
      ((.error fault, after), journal) := by
  rw [handle, h]
  rfl

/-- **The world refuses to send the last datagram again**, which an accepted datagram asks
for. -/
def Refused (world : World) (journal : Journal) (client : Address) (resend : Option Bytes) :
    Prop :=
  ∃ bytes reason, resend = some bytes ∧ world.send journal client bytes = .error reason

/-- Then nothing is published. -/
theorem perform_handle_refused (h : relay.accept clock client datagram = (.ok arrival, after))
    {journal : Journal} {bytes : Bytes} {reason : String}
    (hresend : arrival.receipt.resend = some bytes)
    (hrefused : world.send journal client bytes = .error reason) :
    perform (relay.handle world.outlets clock client datagram) journal =
      ((.error (.io reason), after.count (·.resend)),
        journal ++ [.sent client bytes (.error reason)]) := by
  rw [handle, h]
  simp only [hresend]
  rw [perform_bind, perform_write, hrefused]
  rfl

/-- **Otherwise what the datagram brought is published**, behind the last datagram if that was
asked for. -/
theorem perform_handle_ok (h : relay.accept clock client datagram = (.ok arrival, after))
    {journal : Journal} (htaken : ¬ Refused world journal client arrival.receipt.resend) :
    ∃ resent ready results, resent.filterMap Effect.offered? = [] ∧
      (ready = after ∨
        ∃ size, ready = (after.count (·.resend)).count (·.datagramSent size)) ∧
      results.length = (routedOf arrival).length ∧
      perform (relay.handle world.outlets clock client datagram) journal =
        ((.ok (results.countP (·.isOk)), ready.noteForward arrival (results.countP (·.isOk))
            (results.countP fun result => !result.isOk)),
          journal ++ (resent ++ List.zipWith .offered (routedOf arrival) results)) := by
  rw [handle, h]
  simp only
  rcases hresend : arrival.receipt.resend with _ | bytes
  · obtain ⟨results, hlength, hforward⟩ := perform_forward world after arrival journal
    refine ⟨[], after, results, rfl, Or.inl rfl, hlength, ?_⟩
    simp only
    rw [perform_bind, hforward]
    rfl
  · rcases hsend : world.send journal client bytes with reason | ⟨⟨⟩⟩
    · exact absurd ⟨bytes, reason, hresend, hsend⟩ htaken
    · obtain ⟨results, hlength, hforward⟩ := perform_forward world
        ((after.count (·.resend)).count (·.datagramSent bytes.length.toUInt64)) arrival
        (journal ++ [.sent client bytes (.ok ())])
      refine ⟨[.sent client bytes (.ok ())], _, results, rfl,
        Or.inr ⟨bytes.length.toUInt64, rfl⟩, hlength, ?_⟩
      simp only
      rw [perform_bind, perform_write, hsend]
      simp only [noteSent]
      rw [perform_bind, hforward, List.append_assoc]
      rfl

/-! ### Sessions that receive -/

/-- A session that is stored is the one that is found, and the others are as before. -/
theorem session?_store {session stored : Session}
    (hsession : relay.session? client = some session) (haddress : stored.address = client)
    (other : Address) : (relay.store stored).session? other =
      if other = client then some stored else relay.session? other := by
  rw [session?, store, haddress, SessionTable.get?_modify _ fun _ => haddress]
  change (if other = client then (relay.session? client).map _ else _) = _
  rw [hsession]
  rfl

/-- An encrypted datagram that its sender's session receives is accepted. -/
theorem accept_eq_ok {session : Session} {receipt : Session.Receipt}
    (hsession : relay.session? client = some session) (hclear : Login.parse? datagram = .ok none)
    (hreceipt : (session.receive relay.book relay.scratch clock.now datagram).1 = .ok receipt) :
    ∃ after, relay.accept clock client datagram =
        (.ok ⟨client, session.character, receipt⟩, after) ∧ after.metrics = relay.metrics ∧
      after.session? client =
        some (session.receive relay.book relay.scratch clock.now datagram).2.1 := by
  obtain ⟨haddress, hcharacter⟩ :=
    session.identity_receive relay.book relay.scratch clock.now datagram
  rw [SessionTable.address_of_get? hsession] at haddress
  rcases hreceive : session.receive relay.book relay.scratch clock.now datagram with
    ⟨result, received, scratch⟩
  rw [hreceive] at hreceipt haddress hcharacter
  simp only at hreceipt haddress hcharacter
  have hlong : ¬ datagram.length < headerSize := by
    intro hshort
    rw [Session.receive, if_pos (by rw [headerSize] at hshort ⊢; omega)] at hreceive
    cases hreceive
    cases hreceipt
  refine ⟨({ relay with scratch }.store received), ?_, rfl, ?_⟩
  · rw [accept, if_neg hlong, hclear]
    simp only [acceptEncrypted, hsession, hreceive, hreceipt, Except.map, hcharacter]
  · have hscratch : ({ relay with scratch } : Relay).session? client = some session := hsession
    rw [session?_store hscratch haddress, if_pos rfl]

/-- An encrypted datagram that its sender's session does not receive is not accepted. -/
theorem accept_eq_error {session received : Session} {scratch : BufferPool}
    {fault : Fault} (hsession : relay.session? client = some session)
    (hclear : Login.parse? datagram = .ok none) (hlong : headerSize ≤ datagram.length)
    (hreceive : session.receive relay.book relay.scratch clock.now datagram =
      (.error fault, received, scratch)) :
    ∃ after, relay.accept clock client datagram = (.error fault, after) ∧
      after.session? client = some received := by
  have haddress : received.address = client := by
    obtain ⟨hsame, -⟩ := session.identity_receive relay.book relay.scratch clock.now datagram
    rw [hreceive] at hsame
    exact hsame.trans (SessionTable.address_of_get? hsession)
  refine ⟨{ relay with scratch }.store received, ?_, ?_⟩
  · rw [accept, if_neg (Nat.not_lt.mpr hlong), hclear]
    simp only [acceptEncrypted, hsession, hreceive]
    rfl
  · have hscratch : ({ relay with scratch } : Relay).session? client = some session := hsession
    rw [session?_store hscratch haddress, if_pos rfl]

end Relay

end ZoneRelay
