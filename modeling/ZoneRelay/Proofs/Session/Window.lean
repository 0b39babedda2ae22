import ZoneRelay.Proofs.Code.Layout
import ZoneRelay.Proofs.Frame.Framing
import ZoneRelay.Proofs.Session.Run

/-!
# The window

The sub-packets of a datagram are accepted against the client's sequence number as it stands
before the datagram, and the number moves to the datagram's own once something was accepted.
So the window never opens again behind an accepted datagram: **what was forwarded once is not
forwarded twice**, however datagrams are repeated, reordered or forged, as long as the
sequence numbers are not started over (`ZoneRelay.Session.forwarded_at_most_once`).

A step is described by two numbers, the client's number before and after
(`ZoneRelay.Session.Guarded`): it does not fall, what the step forwards lies above the first,
and the number of the datagram it came in lies at or below the second. A run adds up its
steps. Login requests are forwarded whatever their number, so they are left out of all this.
-/

namespace ZoneRelay

namespace Session

open ZoneRelay.Frame

/-! ### Harvesting -/

/-- Moving forward does not move back. -/
theorem clientSequence_le_advance (session : Session) (sequence : UInt16) :
    session.clientSequence ≤ (session.advance sequence).clientSequence := by
  show session.clientSequence ≤
    if session.clientSequence ≤ sequence then sequence else session.clientSequence
  split
  · assumption
  · exact UInt16.le_refl _

/-- Moving forward comes at least as far as the given number. -/
theorem sequence_le_advance (session : Session) (sequence : UInt16) :
    sequence ≤ (session.advance sequence).clientSequence := by
  show sequence ≤ if session.clientSequence ≤ sequence then sequence else session.clientSequence
  split
  · exact UInt16.le_refl _
  · rename_i hnot
    exact UInt16.le_of_lt (UInt16.not_le.mp hnot)

/-- A sub-packet that was accepted is a login request or lies in the window. -/
theorem mem_harvest {session : Session} {sequence : UInt16} {region : Bytes} {packet : SubPacket}
    (h : packet ∈ (session.harvest sequence region).1.packets) (hkind : packet.kind ≠ loginType) :
    session.clientSequence < packet.sequence ∧ packet.sequence ≤ sequence := by
  rw [harvest_eq] at h
  obtain ⟨raw, hmem, rfl⟩ := List.mem_map.mp h
  have haccepts := (List.mem_filter.mp hmem).2
  have hother : (raw.kind == loginType) = false := beq_false_of_ne hkind
  rw [accepts, hother, Bool.false_or, inWindow, Bool.and_eq_true] at haccepts
  exact ⟨of_decide_eq_true haccepts.1, of_decide_eq_true haccepts.2⟩

/-- The client's number does not fall. -/
theorem le_clientSequence_harvest (session : Session) (sequence : UInt16) (region : Bytes) :
    session.clientSequence ≤ (session.harvest sequence region).2.clientSequence := by
  rcases session.harvest_snd sequence region with h | h <;> rw [h]
  · exact UInt16.le_refl _
  · exact session.clientSequence_le_advance sequence

/-- The client's number has moved to the datagram's if anything was accepted. -/
theorem sequence_le_harvest {session : Session} {sequence : UInt16} {region : Bytes}
    {packet : SubPacket} (h : packet ∈ (session.harvest sequence region).1.packets) :
    sequence ≤ (session.harvest sequence region).2.clientSequence := by
  rw [harvest_eq] at h ⊢
  obtain ⟨raw, hmem, -⟩ := List.mem_map.mp h
  simp only [if_neg (List.ne_nil_of_mem hmem)]
  exact session.sequence_le_advance sequence

/-! ### Steps -/

/-- **What a step does to the window**: the client's number does not fall, and of a datagram
that was taken apart, the sub-packets that are no login requests lie above the number before
and not above the datagram's own, which in turn lies at or below the number after if there is
such a sub-packet. -/
structure Guarded (before after : Session) (outcome : Outcome) : Prop where
  mono : before.clientSequence ≤ after.clientSequence
  above : ∀ receipt, outcome.receipt? = some receipt → ∀ packet ∈ receipt.packets,
    packet.kind ≠ loginType →
      before.clientSequence < packet.sequence ∧ packet.sequence ≤ receipt.header.sequence
  below : ∀ receipt, outcome.receipt? = some receipt → ∀ packet ∈ receipt.packets,
    packet.kind ≠ loginType → receipt.header.sequence ≤ after.clientSequence

/-- A step without a receipt. -/
theorem Guarded.of_none {before after : Session} {outcome : Outcome}
    (hmono : before.clientSequence ≤ after.clientSequence) (hnone : outcome.receipt? = none) :
    Guarded before after outcome where
  mono := hmono
  above receipt h := by rw [hnone] at h; cases h
  below receipt h := by rw [hnone] at h; cases h

/-- A step that harvests a region. -/
theorem Guarded.of_harvest {before opened : Session}
    (hopened : opened.clientSequence = before.clientSequence) (header : Header) (kind : Kind)
    (region : Bytes) (resend : Option Bytes) (now : Instant) :
    Guarded before ((opened.harvest header.sequence region).2.touch now)
      (.received (.ok (opened.receipt header kind region resend))) where
  mono := hopened ▸ opened.le_clientSequence_harvest header.sequence region
  above receipt h packet hmem hkind := by
    cases h
    rw [← hopened]
    exact mem_harvest hmem hkind
  below receipt h packet hmem _ := by
    cases h
    exact sequence_le_harvest hmem

theorem clientSequence_assemble (book : Code.Book) (limit : Nat) (session : Session)
    (timestamp : UInt32) (waiting : List SubPacket) :
    (session.assemble book limit timestamp waiting).2.clientSequence =
      session.clientSequence := by
  rcases session.assemble_cases book limit timestamp waiting with
    ⟨fault, h⟩ | ⟨bytes, consumed, zone, -, -, h⟩ <;> rw [h]
  simp only
  split
  · rw [rotateKey, recordSent]
  · rw [recordSent]

/-- **Every operation but starting over guards the window.** -/
theorem guarded_step (book : Code.Book) (session : Session) {op : Op}
    (hop : ∀ sequence, op ≠ .resync sequence) :
    Guarded session (session.step book op).after (session.step book op).outcome := by
  have hsame : session.clientSequence ≤ session.clientSequence := UInt16.le_refl _
  cases op with
  | assemble limit timestamp waiting =>
    rw [step_assemble]
    exact .of_none (clientSequence_assemble book limit session timestamp waiting ▸ hsame) rfl
  | receive pool now datagram =>
    obtain ⟨opened, hopened, hcases⟩ := receive_cases book pool session now datagram
    have hclient : opened.clientSequence = session.clientSequence := by
      rcases hopened with rfl | rfl <;> rfl
    rw [step_receive]
    rcases hcases with ⟨fault, hresult, hafter⟩ | ⟨header, opening, region, hresult, hafter⟩
    · simp only [hresult, hafter]
      exact .of_none (hclient ▸ hsame) rfl
    · simp only [hresult, hafter]
      exact .of_harvest hclient header _ region _ now
  | receiveLogin now datagram login =>
    exact .of_harvest rfl login.header .login (Login.body datagram) none now
  | decrypt datagram =>
    rw [step, Op.apply]
    rcases session.decrypt_cases datagram with ⟨fault, h⟩ | ⟨clear, h⟩ | ⟨clear, h⟩ <;> rw [h] <;>
      exact .of_none hsame rfl
  | rotateKey =>
    rw [step, Op.apply, rotateKey]
    exact .of_none hsame rfl
  | recordSent bytes => exact .of_none hsame rfl
  | resync sequence => exact absurd rfl (hop sequence)
  | restartLogin =>
    rw [step, Op.apply, restartLogin]
    split <;> exact .of_none hsame rfl
  | advance sequence => exact .of_none (session.clientSequence_le_advance sequence) rfl
  | touch now => exact .of_none hsame rfl

/-! ### Runs -/

/-- The sessions along a run, the first one included. -/
def states (book : Code.Book) (session : Session) (ops : List Op) : List Session :=
  session :: (trace book session ops).map (·.after)

/-- The receipts of a run, in order. -/
def receipts (book : Code.Book) (session : Session) (ops : List Op) : List Receipt :=
  (trace book session ops).filterMap (·.outcome.receipt?)

theorem receipts_append (book : Code.Book) (session : Session) (ops more : List Op) :
    receipts book session (ops ++ more) =
      receipts book session ops ++ receipts book (session.run book ops) more := by
  rw [receipts, trace_append, List.filterMap_append]
  rfl

/-- No session along a run has a smaller client's number than the first. -/
theorem clientSequence_le_of_mem_states {book : Code.Book} {session later : Session}
    {ops : List Op} (hops : ∀ op ∈ ops, ∀ sequence, op ≠ .resync sequence)
    (h : later ∈ states book session ops) : session.clientSequence ≤ later.clientSequence := by
  induction ops generalizing session with
  | nil =>
    obtain rfl := List.mem_singleton.mp h
    exact UInt16.le_refl _
  | cons op rest ih =>
    rcases List.mem_cons.mp h with rfl | h
    · exact UInt16.le_refl _
    · have hguard := guarded_step book session (hops op List.mem_cons_self)
      exact UInt16.le_trans hguard.mono
        (ih (fun op' hmem => hops op' (List.mem_cons_of_mem _ hmem)) h)

/-- Whatever a run forwards, login requests apart, lies above the client's number before the
run. -/
theorem clientSequence_lt_of_mem_receipts {book : Code.Book} {session : Session} {ops : List Op}
    (hops : ∀ op ∈ ops, ∀ sequence, op ≠ .resync sequence) {receipt : Receipt}
    (h : receipt ∈ receipts book session ops) {packet : SubPacket} (hmem : packet ∈ receipt.packets)
    (hkind : packet.kind ≠ loginType) : session.clientSequence < packet.sequence := by
  obtain ⟨step, hstep, hreceipt⟩ := List.mem_filterMap.mp h
  induction ops generalizing session with
  | nil => cases hstep
  | cons op rest ih =>
    have hguard := guarded_step book session (hops op List.mem_cons_self)
    rcases List.mem_cons.mp hstep with rfl | hstep
    · exact (hguard.above receipt hreceipt packet hmem hkind).1
    · refine UInt16.lt_of_le_of_lt hguard.mono ?_
      exact ih (fun op' hmem => hops op' (List.mem_cons_of_mem _ hmem))
        (List.mem_filterMap.mpr ⟨step, hstep, hreceipt⟩) hstep

/-- **What was forwarded is not forwarded again.** Along any run that does not start the
sequence numbers over, whatever datagrams arrive in it, the client's number never falls; and
once a sub-packet that is no login request was forwarded from a datagram, no later datagram has
one forwarded with that datagram's number or a smaller one, so none with the number of that
sub-packet either. -/
theorem forwarded_at_most_once (book : Code.Book) (session : Session) (ops : List Op)
    (hops : ∀ op ∈ ops, ∀ sequence, op ≠ .resync sequence) :
    (states book session ops).Pairwise (fun s t => s.clientSequence ≤ t.clientSequence) ∧
    (receipts book session ops).Pairwise fun earlier later =>
      ∀ p ∈ earlier.packets, p.kind ≠ loginType → ∀ q ∈ later.packets, q.kind ≠ loginType →
        earlier.header.sequence < q.sequence ∧ q.sequence ≠ p.sequence := by
  induction ops generalizing session with
  | nil => exact ⟨List.pairwise_singleton _ _, .nil⟩
  | cons op rest ih =>
    have hrest : ∀ op ∈ rest, ∀ sequence, op ≠ .resync sequence :=
      fun op' hmem => hops op' (List.mem_cons_of_mem _ hmem)
    have hguard := guarded_step book session (hops op List.mem_cons_self)
    obtain ⟨hstates, hreceipts⟩ := ih (session.step book op).after hrest
    refine ⟨List.pairwise_cons.mpr ⟨fun later hlater => ?_, hstates⟩, ?_⟩
    · exact UInt16.le_trans hguard.mono (clientSequence_le_of_mem_states hrest hlater)
    · rw [receipts, trace, List.filterMap_cons]
      rcases hreceipt : (session.step book op).outcome.receipt? with _ | earlier
      · exact hreceipts
      · -- the datagram's number lies below the window that all later ones find
        refine List.pairwise_cons.mpr ⟨fun later hlater p hp hpkind q hq hqkind => ?_, hreceipts⟩
        have hafter := clientSequence_lt_of_mem_receipts hrest hlater hq hqkind
        have hlt : earlier.header.sequence < q.sequence :=
          UInt16.lt_of_le_of_lt (hguard.below earlier hreceipt p hp hpkind) hafter
        refine ⟨hlt, fun heq => ?_⟩
        have hle := (hguard.above earlier hreceipt p hp hpkind).2
        exact UInt16.not_lt.mpr hle (heq ▸ hlt)

/-- A region with one sub-packet, which has number 3. -/
def replayed : Bytes := region [⟨0x15, 3, [1, 2, 3, 4]⟩] ++ [0]

theorem harvest_replayed (session : Session) : session.harvest 5 replayed =
    if session.clientSequence < 3 then
      (⟨[⟨0x15, 3, [1, 2, 3, 4]⟩], 0, .complete⟩, session.advance 5)
    else (⟨[], 1, .complete⟩, session) := by
  have hdemux : demux replayed = ([SubPacket.raw ⟨0x15, 3, [1, 2, 3, 4]⟩], .complete) :=
    demux_region (by decide) front_zero
  have hlast : decide ((3 : UInt16) ≤ 5) = true := by decide
  have haccepts : session.accepts 5 (SubPacket.raw ⟨0x15, 3, [1, 2, 3, 4]⟩) =
      decide (session.clientSequence < 3) := by
    show (false || (decide (session.clientSequence < 3) && decide ((3 : UInt16) ≤ 5))) = _
    rw [hlast, Bool.and_true, Bool.false_or]
  rw [harvest_eq, hdemux]
  by_cases hnew : session.clientSequence < 3
  · simp [haccepts, hnew]
    decide
  · simp [haccepts, hnew]

/-- A login datagram with that region comes twice; what comes in between is too short for a
datagram. -/
def replay : List Op :=
  let login : Login := ⟨⟨5, 0, 0⟩, 7, 0⟩
  let datagram := login.header.toBytes ++ replayed ++ Bytes.zeros 16
  [.receiveLogin 0 datagram login, .receive regionBuffers 1 [1, 2, 3],
    .receiveLogin 2 datagram login]

/-- The repeated sub-packet is forwarded from the first of the two datagrams only. -/
theorem forwarded_at_most_once_replay : ∃ book session,
    Code.Lengths.standard.book = .ok book ∧
    session = start (.v4 127 0 0 1 5000) 7 (.ofText "secret") 0 ∧
    (receipts book session replay).map (fun receipt => (receipt.packets, receipt.skipped)) =
      [([⟨0x15, 3, [1, 2, 3, 4]⟩], 0), ([], 1)] ∧
    (receipts book session replay).Pairwise fun earlier later =>
      ∀ p ∈ earlier.packets, p.kind ≠ loginType → ∀ q ∈ later.packets, q.kind ≠ loginType →
        earlier.header.sequence < q.sequence ∧ q.sequence ≠ p.sequence := by
  obtain ⟨book, hbook, -⟩ := Code.Lengths.standard.exists_book
  obtain ⟨session, hsession⟩ : ∃ session,
    session = start (.v4 127 0 0 1 5000) 7 (.ofText "secret") 0 := ⟨_, rfl⟩
  have hops : ∀ op ∈ replay, ∀ sequence, op ≠ .resync sequence := by
    intro op hop sequence
    simp only [replay, List.mem_cons, List.not_mem_nil, or_false] at hop
    rcases hop with rfl | rfl | rfl <;> nofun
  refine ⟨book, session, hbook, hsession, ?_, (forwarded_at_most_once book session replay hops).2⟩
  have hclient : session.clientSequence = 0 := by rw [hsession, start]
  have hmoved : ((session.advance 5).touch 0).clientSequence = 5 := by
    rw [touch, advance, hclient]
    rfl
  have hshort : ∀ s : Session, s.receive book regionBuffers 1 [1, 2, 3] =
      (.error (.inputTruncated 45 3), s, regionBuffers) := by
    intro s
    rw [receive]
    exact if_pos (by decide)
  have hfirst := session.harvest_replayed
  have hsecond := ((session.advance 5).touch 0).harvest_replayed
  -- the first time the window is open, the second time it has moved past the sub-packet
  rw [hclient, if_pos (by decide)] at hfirst
  rw [hmoved, if_neg (by decide)] at hsecond
  have hbody : Login.body ((Header.mk 5 0 0).toBytes ++ replayed ++ Bytes.zeros 16) = replayed :=
    rfl
  simp only [receipts, replay, trace, step_receive, hshort]
  simp only [step, Op.apply, receiveLogin_eq, receipt, hbody, hfirst, hsecond]
  rfl

end Session

end ZoneRelay
