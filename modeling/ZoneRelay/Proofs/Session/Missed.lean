import ZoneRelay.Proofs.Session.LoginRequest
import ZoneRelay.Proofs.Session.Slot

/-!
# The last datagram missed

A client that has seen all datagrams but the last acknowledges the number before the last one. As
long as the numbers do not start over, a session counts them up by one for each datagram
(`ZoneRelay.Session.CountsOn`), so that this is the number of the datagram before, and the slot
holds the last one. What comes of the acknowledgement is then settled by the number alone.

| the last datagram's number | the one before is acknowledged | the last one is acknowledged |
|---|---|---|
| above zero | the last datagram is asked for | nothing is asked for |
| zero, after `0xFFFF` | nothing is asked for | nothing is asked for |

The second row is where the counter has wrapped around and the comparison has not: `0xFFFF` does not
lie below zero. **One datagram in 65536 can be missed without being noticed**
(`ZoneRelay.Session.last_missed_unseen`), and so can any whose acknowledgement comes with a login
datagram, since the acknowledgement of a login is not looked at.
-/

namespace ZoneRelay

open ZoneRelay.Frame

namespace Session

/-! ### Counting on -/

/-- **A session counts on from another** over the datagrams sent in between: they are numbered one
after another from the first session's number, the number to come is the one behind them, and the
last of them is in the slot. -/
structure CountsOn (before : Session) (sent : List Sent) (after : Session) : Prop where
  number : after.serverSequence = before.serverSequence + UInt16.ofNat sent.length
  numbered : sent.map (·.sequence) =
    (List.range sent.length).map fun index => before.serverSequence + UInt16.ofNat index
  slot : after.lastSent = sent.getLast?.or before.lastSent

/-- Only what starts the numbers over does so. -/
theorem restarts_eq_false (book : Code.Book) (session : Session) {op : Op}
    (h : ∀ number, op ≠ .resync number) : (session.step book op).restarts = false := by
  cases op with
  | resync number => exact absurd rfl (h number)
  | assemble | receive | receiveLogin | decrypt | rotateKey | recordSent | restartLogin | advance
  | touch => rfl

/-- A step that does not start the numbers over counts on. -/
theorem CountsOn.step {book : Code.Book} {before session : Session} {sent : List Sent}
    (h : CountsOn before sent session) {op : Op} (hop : ∀ number, op ≠ .resync number) :
    CountsOn before (sent ++ sendings [session.step book op]) (session.step book op).after := by
  rcases slot_step book session op with
    ⟨hrestarts, -⟩ | ⟨-, hsent, hslot, hnumber⟩ | ⟨bytes, -, hsent, hslot, hnumber⟩
  · rw [restarts_eq_false book session hop] at hrestarts
    cases hrestarts
  · have hnothing : sendings [session.step book op] = [] := List.filterMap_cons_none hsent
    rw [hnothing, List.append_nil]
    exact ⟨hnumber.trans h.number, h.numbered, hslot.trans h.slot⟩
  · have hone : sendings [session.step book op] = [⟨session.serverSequence, bytes⟩] :=
      List.filterMap_cons_some hsent
    rw [hone]
    refine ⟨?_, ?_, ?_⟩
    · rw [hnumber, h.number, List.length_append, List.length_singleton, UInt16.ofNat_add,
        UInt16.add_assoc]
      rfl
    · rw [List.map_append, h.numbered, List.length_append, List.length_singleton, List.range_succ,
        List.map_append, h.number]
      rfl
    · rw [hslot, List.getLast?_concat]
      rfl

/-- **A run counts on**, if the numbers do not start over in it. -/
theorem countsOn_run (book : Code.Book) (session : Session) {ops : List Op}
    (hops : ∀ number, .resync number ∉ ops) :
    CountsOn session (sendings (trace book session ops)) (session.run book ops) := by
  induction ops using List.reverseRecOn with
  | nil => exact ⟨(UInt16.add_zero _).symm, rfl, rfl⟩
  | append_singleton ops op ih =>
    have hbefore : ∀ number, .resync number ∉ ops :=
      fun number hmem => hops number (List.mem_append_left _ hmem)
    have hop : ∀ number, op ≠ .resync number :=
      fun number heq => hops number (List.mem_append_right _ (heq ▸ List.mem_singleton_self op))
    rw [trace_append, run_append, sendings_append]
    exact (ih hbefore).step hop

/-- The last two datagrams have neighbouring numbers, and the last one is in the slot. -/
theorem CountsOn.last_two {start after : Session} {front : List Sent} {before last : Sent}
    (h : CountsOn start (front ++ [before, last]) after) :
    after.lastSent = some last ∧ before.sequence = last.sequence - 1 ∧
      last.sequence = start.serverSequence + UInt16.ofNat (front.length + 1) := by
  have hnumbered := h.numbered
  rw [List.length_append, List.length_cons, List.length_singleton, List.range_succ,
    List.range_succ, List.map_append, List.append_assoc, List.map_append] at hnumbered
  obtain ⟨hbefore, hrest⟩ := List.cons.inj (List.append_inj' hnumbered rfl).2
  have hlast : last.sequence = start.serverSequence + UInt16.ofNat (front.length + 1) :=
    (List.cons.inj hrest).1
  refine ⟨?_, ?_, hlast⟩
  · rw [h.slot, List.getLast?_append_of_ne_nil _ (List.cons_ne_nil _ _)]
    rfl
  · refine hbefore.trans ?_
    rw [hlast, UInt16.ofNat_add, ← UInt16.add_assoc]
    exact (UInt16.add_sub_cancel _ 1).symm

/-! ### Acknowledgements -/

/-- With a datagram in the slot, what is asked for hangs on a comparison. -/
theorem resendFor_eq_ite {session : Session} {last : Sent} (h : session.lastSent = some last)
    (ack : UInt16) :
    session.resendFor ack = if ack < last.sequence then some last.bytes else none := by
  rw [resendFor, h, Option.filter_some]
  by_cases hack : ack < last.sequence
  · rw [if_pos hack, if_pos (decide_eq_true hack), Option.map_some]
  · rw [if_neg hack, if_neg (mt of_decide_eq_true hack), Option.map_none]

/-- The number before lies below a number, unless it is the largest. -/
theorem sub_one_lt_iff (number : UInt16) : number - 1 < number ↔ number ≠ 0 := by
  rw [UInt16.lt_iff_toNat_lt, UInt16.toNat_sub, ne_eq, ← UInt16.toNat_inj]
  have hlt := number.toNat_lt
  have hone : (1 : UInt16).toNat = 1 := rfl
  have hzero : (0 : UInt16).toNat = 0 := rfl
  omega

/-- **What is asked for behind two datagrams**: the last one by a client that acknowledges the one
before, unless the last one's number is zero, and nothing by a client that acknowledges both. -/
theorem CountsOn.resend {start after : Session} {front : List Sent} {before last : Sent}
    (h : CountsOn start (front ++ [before, last]) after) {book : Code.Book} {pool : BufferPool}
    {now : Instant} {datagram : Bytes} {receipt : Receipt}
    (hreceive : (after.receive book pool now datagram).1 = .ok receipt) :
    (receipt.header.ack = before.sequence →
        receipt.resend = if last.sequence = 0 then none else some last.bytes) ∧
      (receipt.header.ack = last.sequence → receipt.resend = none) := by
  obtain ⟨hslot, hbefore, -⟩ := h.last_two
  rw [resend_eq_of_receive hreceive, resendFor_eq_ite hslot]
  refine ⟨fun hack => ?_, fun hack => ?_⟩
  · rw [hack, hbefore]
    simp only [sub_one_lt_iff, ne_eq, ite_not]
  · rw [hack, if_neg (UInt16.lt_irrefl _)]

/-- **The last datagram missed.** Along a run in which the numbers do not start over, at least two
datagrams are sent. The number of the last is one above that of the one before, and a datagram of
the client that acknowledges the one before asks for the last one, with its exact bytes, unless the
last one's number is zero. A datagram that acknowledges the last one asks for nothing, and neither
does a login datagram, whatever it acknowledges. -/
theorem last_missed_resent (book : Code.Book) (session : Session) {ops : List Op}
    {front : List Sent} {before last : Sent} (hops : ∀ number, .resync number ∉ ops)
    (hsent : sendings (trace book session ops) = front ++ [before, last]) :
    let after := session.run book ops
    before.sequence = last.sequence - 1 ∧
      last.sequence = session.serverSequence + UInt16.ofNat (front.length + 1) ∧
      (∀ pool now datagram receipt, (after.receive book pool now datagram).1 = .ok receipt →
        (receipt.header.ack = before.sequence →
          receipt.resend = if last.sequence = 0 then none else some last.bytes) ∧
        (receipt.header.ack = last.sequence → receipt.resend = none)) ∧
      ∀ now datagram login, (after.receiveLogin now datagram login).1.resend = none := by
  intro after
  have hcounts := hsent ▸ countsOn_run book session hops
  obtain ⟨-, hbefore, hlast⟩ := hcounts.last_two
  exact ⟨hbefore, hlast, fun _ _ _ _ hreceive => hcounts.resend hreceive, fun _ _ _ => rfl⟩

/-- The session of a client that has just logged in. -/
def newcomer : Session := start (.v4 127 0 0 1 5000) 7 (.ofText "secret") 0

/-- **Of two datagrams the second is asked for** by a client that acknowledges the first. -/
theorem last_missed_resent_second : ∃ book datagram receipt,
    Code.Lengths.standard.book = .ok book ∧
    (∀ number, Op.resync number ∉ [.recordSent [1], .recordSent [2]]) ∧
    sendings (trace book newcomer [.recordSent [1], .recordSent [2]]) =
      [] ++ [⟨0, [1]⟩, ⟨1, [2]⟩] ∧
    ((newcomer.run book [.recordSent [1], .recordSent [2]]).receive book regionBuffers 9
      datagram).1 = .ok receipt ∧
    receipt.header.ack = 0 ∧ receipt.resend = some [2] := by
  obtain ⟨book, hbook, -⟩ := Code.Lengths.standard.exists_book
  let ops : List Op := [.recordSent [1], .recordSent [2]]
  have hops : ∀ number, Op.resync number ∉ ops := by simp [ops]
  have hsent : sendings (trace book newcomer ops) = [] ++ [⟨0, [1]⟩, ⟨1, [2]⟩] := rfl
  obtain ⟨clear, pool', -, hreceive⟩ := exists_receive hbook (newcomer.run book ops) regionBuffers 9
    ⟨6, 0, 0⟩ [⟨0x15, 6, [1, 2, 3, 4]⟩] rfl (by decide) (by decide)
  have hreceipt := congrArg Prod.fst hreceive
  obtain ⟨-, -, hasked, -⟩ := last_missed_resent book newcomer hops hsent
  exact ⟨book, _, _, hbook, hops, hsent, hreceipt, rfl, (hasked _ _ _ _ hreceipt).1 rfl⟩

/-! ### Unseen -/

/-- Datagrams that are noted as sent are what is sent. -/
theorem bytes_sendings_recordSent (book : Code.Book) (session : Session) (datagrams : List Bytes) :
    (sendings (trace book session (datagrams.map .recordSent))).map (·.bytes) = datagrams := by
  induction datagrams generalizing session with
  | nil => rfl
  | cons bytes rest ih => exact congrArg (bytes :: ·) (ih _)

/-- Two datagrams or more are some, one before the last, and the last. -/
theorem exists_last_two {sent : List Sent} {earlier : Nat} (h : sent.length = earlier + 2) :
    ∃ front before last, sent = front ++ [before, last] ∧ front.length = earlier := by
  have hback : (sent.drop earlier).length = 2 := by
    rw [List.length_drop, h, Nat.add_sub_cancel_left]
  obtain ⟨before, last, htwo⟩ := List.length_eq_two.mp hback
  refine ⟨sent.take earlier, before, last, ?_, ?_⟩
  · rw [← htwo, List.take_append_drop]
  · rw [List.length_take, h]
    exact Nat.min_eq_left (Nat.le_add_right _ _)

/-- **Behind a number of zero the last datagram is not missed.** If datagrams are noted as sent
until the number of the last one is zero, a client that acknowledges the one before it is heard, and
the last one is not asked for. -/
theorem exists_unseen {lengths : Code.Lengths} {book : Code.Book} (hbook : lengths.book = .ok book)
    (session : Session) {datagrams : List Bytes} {earlier : Nat}
    (hlength : datagrams.length = earlier + 2)
    (hzero : session.serverSequence + UInt16.ofNat (earlier + 1) = 0) :
    ∃ front before last datagram receipt,
      sendings (trace book session (datagrams.map .recordSent)) = front ++ [before, last] ∧
      before.sequence = 0xFFFF ∧ last.sequence = 0 ∧
      ((session.run book (datagrams.map .recordSent)).receive book regionBuffers 9 datagram).1 =
        .ok receipt ∧
      receipt.header.ack = before.sequence ∧ receipt.resend = none := by
  have hops : ∀ number, Op.resync number ∉ datagrams.map .recordSent := by simp
  have hmany : (sendings (trace book session (datagrams.map .recordSent))).length =
      earlier + 2 := by
    rw [← hlength, ← List.length_map, bytes_sendings_recordSent]
  obtain ⟨front, before, last, hsent, hfront⟩ := exists_last_two hmany
  have hcounts := hsent ▸ countsOn_run book session hops
  obtain ⟨-, hbefore, hlast⟩ := hcounts.last_two
  rw [hfront, hzero] at hlast
  obtain ⟨clear, pool', -, hreceive⟩ := exists_receive hbook
    (session.run book (datagrams.map .recordSent)) regionBuffers 9 ⟨6, before.sequence, 0⟩
    [⟨0x15, 6, [1, 2, 3, 4]⟩] rfl (by decide) (by decide)
  have hreceipt := congrArg Prod.fst hreceive
  refine ⟨front, before, last, _, _, hsent, ?_, hlast, hreceipt, rfl, ?_⟩
  · rw [hbefore, hlast]
    rfl
  · rw [(hcounts.resend hreceipt).1 rfl, if_pos hlast]

/-- **A missed datagram unseen.** After 65537 datagrams the last one has the number zero, and the
one before has the largest there is. A client that acknowledges the one before is not sent the last
one again. Nor is a client that has seen only the first of two datagrams, if it says so in a login
datagram. -/
theorem last_missed_unseen : ∃ book, Code.Lengths.standard.book = .ok book ∧
    (let ops := (List.replicate 65537 [1]).map Op.recordSent
      ∃ front before last datagram receipt,
        sendings (trace book newcomer ops) = front ++ [before, last] ∧
        before.sequence = 0xFFFF ∧ last.sequence = 0 ∧
        ((newcomer.run book ops).receive book regionBuffers 9 datagram).1 = .ok receipt ∧
        receipt.header.ack = before.sequence ∧ receipt.resend = none) ∧
    let ops := [Op.recordSent [1], .recordSent [2]]
    ∃ datagram login,
      sendings (trace book newcomer ops) = [] ++ [⟨0, [1]⟩, ⟨1, [2]⟩] ∧
      Login.parse? datagram = .ok (some login) ∧ login.header.ack = 0 ∧
      ((newcomer.run book ops).receiveLogin 9 datagram login).1.resend = none := by
  obtain ⟨book, hbook, -⟩ := Code.Lengths.standard.exists_book
  exact ⟨book, hbook, exists_unseen hbook newcomer (List.length_replicate ..) rfl,
    Login.datagram 7 0 1 [], _, rfl, Login.parse?_datagram 7 0 1 [], rfl, rfl⟩

end Session

end ZoneRelay
