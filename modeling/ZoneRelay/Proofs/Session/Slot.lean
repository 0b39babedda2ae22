import Mathlib.Data.List.DropRight
import ZoneRelay.Proofs.Session.Acceptance

/-!
# The resend slot

A session numbers the datagrams it sends and keeps the last of them, so that it can be sent
again when an acknowledgement lies below its number. Packing a datagram and noting one as sent
fill this slot and count the number up; starting the numbers over sets the number to zero; and
nothing else touches either of the two.

| an operation | the slot afterwards | the number afterwards |
|---|---|---|
| sends a datagram | that datagram, under the number before | one more |
| starts the numbers over | the same | zero |
| does anything else | the same | the same |

**The slot is not emptied when the numbers start over.** So it holds the last datagram of the
whole run, while the number counts the datagrams since the numbers last started over
(`ZoneRelay.Session.slot_of_run`). The two fit together as long as something was sent since:
then the slot holds the last datagram under the current numbers, one below the number to come.
Until then it holds a datagram of an earlier numbering, and an acknowledgement under the new
numbers is compared with a number of the old ones (`ZoneRelay.Session.resend_across_resync`).
-/

namespace ZoneRelay

namespace Session

open ZoneRelay.Frame

/-! ### What a run sends -/

/-- The datagram that a step sends, with its number, if it sends one. -/
def Step.sent? (step : Step) : Option Sent :=
  match step.op, step.outcome with
  | .recordSent bytes, _ => some ⟨step.before.serverSequence, bytes⟩
  | _, .assembled (.ok datagram) => some ⟨datagram.sequence, datagram.bytes⟩
  | _, _ => none

/-- Whether a step starts the sequence numbers over. -/
def Step.restarts (step : Step) : Bool :=
  match step.op with
  | .resync _ => true
  | _ => false

/-- All datagrams that the steps of a run send, in order. -/
def sendings (steps : List Step) : List Sent := steps.filterMap Step.sent?

/-- The steps of a run since the sequence numbers last started over: all of them, if they never
did. -/
def numbering (steps : List Step) : List Step := steps.rtakeWhile fun step => !step.restarts

theorem sendings_append (steps more : List Step) :
    sendings (steps ++ more) = sendings steps ++ sendings more :=
  List.filterMap_append

/-- What was sent since the numbers last started over was sent last. -/
theorem sendings_numbering_suffix (steps : List Step) :
    sendings (numbering steps) <:+ sendings steps :=
  (List.rtakeWhile_suffix _ steps).filterMap _

/-! ### Steps -/

/-- **What a step does to slot and number**: it starts the numbers over and leaves the slot, it
leaves both, or it sends a datagram under the number before, puts it into the slot, and counts
one up. -/
theorem slot_step (book : Code.Book) (session : Session) (op : Op) :
    ((session.step book op).restarts = true ∧ (session.step book op).sent? = none ∧
        (session.step book op).after.lastSent = session.lastSent ∧
        (session.step book op).after.serverSequence = 0) ∨
      ((session.step book op).restarts = false ∧ (session.step book op).sent? = none ∧
        (session.step book op).after.lastSent = session.lastSent ∧
        (session.step book op).after.serverSequence = session.serverSequence) ∨
      ∃ bytes, (session.step book op).restarts = false ∧
        (session.step book op).sent? = some ⟨session.serverSequence, bytes⟩ ∧
        (session.step book op).after.lastSent = some ⟨session.serverSequence, bytes⟩ ∧
        (session.step book op).after.serverSequence = session.serverSequence + 1 := by
  have hharvest : ∀ (opened : Session) (sequence : UInt16) (region : Bytes) (now : Instant),
      ((opened.harvest sequence region).2.touch now).lastSent = opened.lastSent ∧
        ((opened.harvest sequence region).2.touch now).serverSequence =
          opened.serverSequence := by
    intro opened sequence region now
    rcases opened.harvest_snd sequence region with h | h <;> rw [h] <;> exact ⟨rfl, rfl⟩
  cases op with
  | assemble limit timestamp waiting =>
    rw [step_assemble]
    rcases session.assemble_cases book limit timestamp waiting with
      ⟨fault, heq⟩ | ⟨bytes, consumed, zone, -, -, heq⟩
    · rw [heq]
      exact Or.inr (Or.inl ⟨rfl, rfl, rfl, rfl⟩)
    · rw [heq]
      -- the change of key behind a zone packet touches neither slot nor number
      refine Or.inr (Or.inr ⟨bytes, rfl, rfl, ?_⟩)
      cases zone with
      | true => exact ⟨rfl, rfl⟩
      | false => exact ⟨rfl, rfl⟩
  | receive pool now datagram =>
    obtain ⟨opened, hopened, hcases⟩ := receive_cases book pool session now datagram
    have hsame : opened.lastSent = session.lastSent ∧
        opened.serverSequence = session.serverSequence := by
      rcases hopened with rfl | rfl <;> exact ⟨rfl, rfl⟩
    rw [step_receive, ← hsame.1, ← hsame.2]
    refine Or.inr (Or.inl ⟨rfl, ?_⟩)
    rcases hcases with ⟨fault, hresult, hafter⟩ | ⟨header, opening, region, hresult, hafter⟩
    · rw [hresult, hafter]
      exact ⟨rfl, rfl, rfl⟩
    · rw [hresult, hafter]
      exact ⟨rfl, hharvest opened header.sequence region now⟩
  | receiveLogin now datagram login =>
    exact Or.inr (Or.inl ⟨rfl, rfl, hharvest session login.header.sequence _ now⟩)
  | decrypt datagram =>
    refine Or.inr (Or.inl ⟨rfl, rfl, ?_⟩)
    rw [step, Op.apply]
    rcases session.decrypt_cases datagram with ⟨fault, h⟩ | ⟨clear, h⟩ | ⟨clear, h⟩ <;> rw [h] <;>
      exact ⟨rfl, rfl⟩
  | rotateKey =>
    rw [step, Op.apply, rotateKey]
    exact Or.inr (Or.inl ⟨rfl, rfl, rfl, rfl⟩)
  | recordSent bytes => exact Or.inr (Or.inr ⟨bytes, rfl, rfl, rfl, rfl⟩)
  | resync sequence => exact Or.inl ⟨rfl, rfl, rfl, rfl⟩
  | restartLogin =>
    refine Or.inr (Or.inl ⟨rfl, rfl, ?_⟩)
    rw [step, Op.apply, restartLogin]
    split <;> exact ⟨rfl, rfl⟩
  | advance sequence => exact Or.inr (Or.inl ⟨rfl, rfl, rfl, rfl⟩)
  | touch now => exact Or.inr (Or.inl ⟨rfl, rfl, rfl, rfl⟩)

/-! ### Runs -/

/-- **A session accounts for the steps behind it**: the slot holds what they sent last, the
number counts what they sent since the numbers last started over, and these datagrams are
numbered from zero. -/
structure Accounts (steps : List Step) (session : Session) : Prop where
  slot : session.lastSent = (sendings steps).getLast?
  count : session.serverSequence = UInt16.ofNat (sendings (numbering steps)).length
  numbered : (sendings (numbering steps)).map (·.sequence) =
    (List.range (sendings (numbering steps)).length).map UInt16.ofNat

theorem accounts_start (address : Address) (character : UInt32) (key : Cipher.Key)
    (now : Instant) : Accounts [] (start address character key now) :=
  ⟨rfl, rfl, rfl⟩

/-- A step is accounted for with those before it. -/
theorem Accounts.step {book : Code.Book} {session : Session} {steps : List Step}
    (h : Accounts steps session) (op : Op) :
    Accounts (steps ++ [session.step book op]) (session.step book op).after := by
  rcases slot_step book session op with
    ⟨hrestarts, hsent, hslot, hnumber⟩ | ⟨hrestarts, hsent, hslot, hnumber⟩ |
      ⟨bytes, hrestarts, hsent, hslot, hnumber⟩
  · -- the numbers start over, and the slot stays as it is
    have hnumbering : numbering (steps ++ [session.step book op]) = [] :=
      List.rtakeWhile_concat_neg _ _ _ (by simp [hrestarts])
    have hsendings : sendings (steps ++ [session.step book op]) = sendings steps := by
      rw [sendings_append, sendings, sendings, List.filterMap_cons_none hsent,
        List.filterMap_nil, List.append_nil]
    refine ⟨?_, ?_, ?_⟩
    · rw [hslot, hsendings, h.slot]
    · rw [hnumber, hnumbering]
      rfl
    · rw [hnumbering]
      rfl
  · have hnumbering : numbering (steps ++ [session.step book op]) =
        numbering steps ++ [session.step book op] :=
      List.rtakeWhile_concat_pos _ _ _ (by simp [hrestarts])
    have hnothing : sendings [session.step book op] = [] := List.filterMap_cons_none hsent
    refine ⟨?_, ?_, ?_⟩
    · rw [hslot, sendings_append, hnothing, List.append_nil, h.slot]
    · rw [hnumber, hnumbering, sendings_append, hnothing, List.append_nil, h.count]
    · rw [hnumbering, sendings_append, hnothing, List.append_nil, h.numbered]
  · have hnumbering : numbering (steps ++ [session.step book op]) =
        numbering steps ++ [session.step book op] :=
      List.rtakeWhile_concat_pos _ _ _ (by simp [hrestarts])
    have hone : sendings [session.step book op] = [⟨session.serverSequence, bytes⟩] :=
      List.filterMap_cons_some hsent
    refine ⟨?_, ?_, ?_⟩
    · rw [hslot, sendings_append, hone, List.getLast?_concat]
    · rw [hnumber, hnumbering, sendings_append, hone, List.length_append, List.length_singleton,
        UInt16.ofNat_add, h.count]
      rfl
    · rw [hnumbering, sendings_append, hone, List.map_append, List.length_append,
        List.length_singleton, List.range_succ, List.map_append, h.numbered, h.count]
      rfl

theorem accounts_run (book : Code.Book) (address : Address) (character : UInt32)
    (key : Cipher.Key) (now : Instant) (ops : List Op) :
    Accounts (trace book (start address character key now) ops)
      ((start address character key now).run book ops) := by
  induction ops using List.reverseRecOn with
  | nil => exact accounts_start address character key now
  | append_singleton ops op ih =>
    rw [trace_append, run_append]
    exact ih.step op

/-- What was sent since the numbers last started over, if anything was, is in the slot. -/
theorem Accounts.slot_eq {steps : List Step} {session : Session} (h : Accounts steps session)
    (hsent : sendings (numbering steps) ≠ []) :
    session.lastSent = (sendings (numbering steps)).getLast? := by
  obtain ⟨front, hfront⟩ := sendings_numbering_suffix steps
  rw [h.slot, ← hfront, List.getLast?_append_of_ne_nil _ hsent]

/-- **When the slot fits the number**: its datagram is numbered one below the number to come
exactly if something was sent since the numbers last started over, or if it happens to be the
last one that a number of sixteen bits can name. -/
theorem Accounts.sequence_eq_iff {steps : List Step} {session : Session}
    (h : Accounts steps session) {last : Sent} (hlast : session.lastSent = some last) :
    last.sequence = session.serverSequence - 1 ↔
      sendings (numbering steps) ≠ [] ∨ last.sequence = 0xFFFF := by
  -- whether something was sent under the current numbers, and if so what was sent last
  rcases List.eq_nil_or_concat (sendings (numbering steps)) with hnone | ⟨front, sent, hsome⟩
  · have hzero : session.serverSequence = 0 := by
      rw [h.count, hnone]
      rfl
    rw [hzero, hnone]
    exact ⟨fun h => Or.inr h, fun h => h.resolve_left fun hne => hne rfl⟩
  · rw [List.concat_eq_append] at hsome
    have hne : sendings (numbering steps) ≠ [] := hsome ▸ List.concat_ne_nil _ _
    have hslot := h.slot_eq hne
    rw [hsome, List.getLast?_concat, hlast] at hslot
    obtain rfl : last = sent := Option.some.inj hslot
    have hnumbered := h.numbered
    rw [hsome, List.length_append, List.length_singleton, List.range_succ, List.map_append,
      List.map_append] at hnumbered
    have hsequence : last.sequence = UInt16.ofNat front.length := by
      have := (List.append_inj' hnumbered rfl).2
      simpa using this
    have hcount : session.serverSequence = UInt16.ofNat front.length + 1 := by
      rw [h.count, hsome, List.length_append, List.length_singleton, UInt16.ofNat_add]
      rfl
    rw [hcount, hsequence, UInt16.add_sub_cancel]
    exact ⟨fun _ => Or.inl hne, fun _ => rfl⟩

/-! ### Resending -/

/-- What is asked for is the datagram in the slot, if its number lies above the
acknowledgement. -/
theorem resendFor_eq_some_iff {session : Session} {ack : UInt16} {bytes : Bytes} :
    session.resendFor ack = some bytes ↔
      ∃ last, session.lastSent = some last ∧ ack < last.sequence ∧ last.bytes = bytes := by
  simp [resendFor, Option.filter_eq_some_iff, and_assoc]

/-- A datagram that is received asks for what its acknowledgement asks for. -/
theorem resend_eq_of_receive {book : Code.Book} {pool : BufferPool} {session : Session}
    {now : Instant} {datagram : Bytes} {receipt : Receipt}
    (h : (session.receive book pool now datagram).1 = .ok receipt) :
    receipt.resend = session.resendFor receipt.header.ack := by
  obtain ⟨opened, hopened, hcases⟩ := receive_cases book pool session now datagram
  have hsame : ∀ ack, opened.resendFor ack = session.resendFor ack := by
    rcases hopened with rfl | rfl <;> exact fun _ => rfl
  rcases hcases with ⟨fault, hresult, -⟩ | ⟨header, opening, region, hresult, -⟩
  · rw [hresult] at h
    cases h
  · rw [hresult] at h
    cases h
    exact hsame header.ack

/-- **The resend slot.** Along any run from a login, the slot holds the last datagram that was
sent at all; the number to come counts the datagrams sent since the numbers last started over,
and those are numbered from zero. If there are any, the last of them is the one in the slot,
and the slot fits the number: its datagram has the number before. If there are none, it fits
only by chance. A datagram that is received asks for the one in the slot if it acknowledges a
smaller number, whichever numbering the two belong to. -/
theorem slot_of_run (book : Code.Book) (address : Address) (character : UInt32)
    (key : Cipher.Key) (now : Instant) (ops : List Op) :
    let fresh := start address character key now
    let session := fresh.run book ops
    let sent := sendings (trace book fresh ops)
    let current := sendings (numbering (trace book fresh ops))
    session.lastSent = sent.getLast? ∧
      session.serverSequence = UInt16.ofNat current.length ∧
      current.map (·.sequence) = (List.range current.length).map UInt16.ofNat ∧
      (current ≠ [] → session.lastSent = current.getLast?) ∧
      (∀ last, session.lastSent = some last →
        (last.sequence = session.serverSequence - 1 ↔
          current ≠ [] ∨ last.sequence = 0xFFFF)) ∧
      ∀ pool now datagram receipt,
        (session.receive book pool now datagram).1 = .ok receipt →
        ∀ bytes, receipt.resend = some bytes ↔
          ∃ last, sent.getLast? = some last ∧ receipt.header.ack < last.sequence ∧
            last.bytes = bytes := by
  intro fresh session sent current
  have haccounts := accounts_run book address character key now ops
  refine ⟨haccounts.slot, haccounts.count, haccounts.numbered, haccounts.slot_eq,
    fun last hlast => haccounts.sequence_eq_iff hlast, ?_⟩
  intro pool now datagram receipt hreceive bytes
  rw [resend_eq_of_receive hreceive, resendFor_eq_some_iff]
  exact haccounts.slot ▸ Iff.rfl

/-- A session after a number of operations, as its client finds it. -/
def behind (book : Code.Book) (ops : List Op) : Session :=
  (start (.v4 127 0 0 1 5000) 7 (.ofText "secret") 0).run book ops

/-- Two datagrams behind a change of numbers: the slot holds the second, and a datagram that
acknowledges the first asks for it. -/
theorem slot_of_run_resumed : ∃ book session datagram receipt,
    Code.Lengths.standard.book = .ok book ∧
    session = behind book [.recordSent [1], .resync 5, .recordSent [2], .recordSent [3]] ∧
    session.lastSent = some ⟨1, [3]⟩ ∧ session.serverSequence - 1 = 1 ∧
    (session.receive book regionBuffers 9 datagram).1 = .ok receipt ∧
    receipt.header.ack = 0 ∧ receipt.resend = some [3] := by
  obtain ⟨book, hbook, -⟩ := Code.Lengths.standard.exists_book
  let ops : List Op := [.recordSent [1], .resync 5, .recordSent [2], .recordSent [3]]
  obtain ⟨hslot, -, -, hcurrent, hfits, hresend⟩ :=
    slot_of_run book (.v4 127 0 0 1 5000) 7 (.ofText "secret") 0 ops
  have hlast : (behind book ops).lastSent = some ⟨1, [3]⟩ := hcurrent (by nofun)
  have hnumber := (hfits _ hlast).mpr (Or.inl (by nofun))
  obtain ⟨clear, pool', -, hreceive⟩ := exists_receive hbook (behind book ops) regionBuffers 9
    ⟨6, 0, 0⟩ [⟨0x15, 6, [1, 2, 3, 4]⟩] rfl (by decide) (by decide)
  have hreceipt := congrArg Prod.fst hreceive
  refine ⟨book, behind book ops, _, _, hbook, rfl, hlast, hnumber.symm, hreceipt, rfl, ?_⟩
  refine (hresend _ _ _ _ hreceipt [3]).mpr ⟨⟨1, [3]⟩, rfl, ?_, rfl⟩
  show (0 : UInt16) < 1
  decide

/-- **The slot of an earlier numbering.** After two datagrams the numbers start over. The number
to come is zero, but the slot still holds the second datagram under its old number; and a
datagram of the client that acknowledges the first number asks for it, though it was numbered
before the numbers started over. -/
theorem resend_across_resync : ∃ book session datagram receipt,
    Code.Lengths.standard.book = .ok book ∧
    session = behind book [.recordSent [1], .recordSent [2], .resync 5] ∧
    (∃ last, session.lastSent = some last ∧ last.sequence ≠ session.serverSequence - 1) ∧
    session.lastSent = some ⟨1, [2]⟩ ∧ session.serverSequence = 0 ∧
    (session.receive book regionBuffers 9 datagram).1 = .ok receipt ∧
    receipt.packets = [⟨0x15, 6, [1, 2, 3, 4]⟩] ∧ receipt.resend = some [2] := by
  obtain ⟨book, hbook, -⟩ := Code.Lengths.standard.exists_book
  let ops : List Op := [.recordSent [1], .recordSent [2], .resync 5]
  obtain ⟨clear, pool', -, hreceive⟩ := exists_receive hbook (behind book ops) regionBuffers 9
    ⟨6, 0, 0⟩ [⟨0x15, 6, [1, 2, 3, 4]⟩] rfl (by decide) (by decide)
  have hlast : (behind book ops).lastSent = some ⟨1, [2]⟩ := rfl
  have hnumber : (behind book ops).serverSequence = 0 := rfl
  refine ⟨book, behind book ops, _, _, hbook, rfl, ⟨_, hlast, ?_⟩, hlast, hnumber,
    congrArg Prod.fst hreceive, rfl, rfl⟩
  rw [hnumber]
  decide

end Session

end ZoneRelay
