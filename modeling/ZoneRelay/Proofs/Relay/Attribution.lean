import ZoneRelay.Proofs.Relay.History

/-!
# Whose packets they are

What a client sends is published under its address and the number of a character. The number
comes from one of two places: a login is labelled with the character it names, anything else
with the character of the session it goes to. A session belongs to the character whose login
started it, and **a login of another character does not change that**: it is accepted, its own
packets carry the other number, and all that follow carry the first
(`ZoneRelay.Relay.login_labels`).

| what is published | the character it carries |
|---|---|
| with a login | that of the login |
| with anything else | that of the login which started the session |

The second of these is backed by a key. What is published from an encrypted datagram carries a
character whose key, as it was when the session started, opens the datagram, changed as often as
the session's own datagrams have changed it, or once less (`ZoneRelay.Relay.traffic_attributed`).
The login which started the session is the one that its tenure begins with
(`ZoneRelay.Relay.Tenure`), and logins behind it are part of the tenure like anything else.
-/

namespace ZoneRelay

open ZoneRelay.Frame

namespace Relay

open World

variable {config : Config} {book : Code.Book} {provider : KeyProvider}
  {adjustment : KeyAdjustment} {world : World} {client : Address}

/-! ### Labels -/

/-- The login of a client that a step accepts. -/
def Step.login? (client : Address) (step : Step) : Option Login :=
  match step.op.datagram? with
  | some (_, sender, datagram) =>
    if sender = client then (step.before.relay.admits? datagram).map (·.1) else none
  | none => none

theorem login?_eq_none {state : State} {op : Op} {clock : Clock} {datagram : Bytes}
    (h : (step world state op).login? client = none)
    (hdatagram : op.datagram? = some (clock, client, datagram)) :
    state.relay.admits? datagram = none := by
  have hop : (step world state op).op = op := rfl
  simp only [Step.login?, hop, hdatagram, if_true, Option.map_eq_none_iff] at h
  exact h

/-- Every packet of a datagram carries the datagram's labels. -/
theorem labels_of_mem {arrival : Arrival} {routed : Bus.Routed} (h : routed ∈ routedOf arrival) :
    routed.client = arrival.client ∧ routed.character = arrival.character := by
  obtain ⟨packet, -, rfl⟩ := List.mem_map.mp h
  exact ⟨rfl, rfl⟩

/-- **A client's character**: its session, if it has one, belongs to it. -/
def Bound (client : Address) (character : UInt32) (relay : Relay) : Prop :=
  ∀ session, relay.session? client = some session → session.character = character

section Bound

variable {ops : List Op} {character : UInt32}

/-- **Without a login of the client its character stays**, and everything that is published from
it carries that number. -/
theorem Bound.step (hloaded : book.Loaded)
    (h : Bound client character (run world (fresh config book provider adjustment) ops).relay)
    {op : Op}
    (hlogin : (step world (run world (fresh config book provider adjustment) ops) op).login?
      client = none) :
    Bound client character
        (step world (run world (fresh config book provider adjustment) ops) op).after.relay ∧
      ∀ routed ∈ (Relay.step world (run world (fresh config book provider adjustment) ops)
          op).published, routed.client = client → routed.character = character := by
  have hsound := sound_run (Sound.fresh config book provider adjustment) world ops
  have hreachable : Reachable (run world (fresh config book provider adjustment) ops).relay :=
    ⟨config, book, provider, adjustment, world, ops, hloaded, rfl⟩
  generalize run world (fresh config book provider adjustment) ops = state at *
  constructor
  · intro after hafter
    rcases hbefore : state.relay.session? client with _ | session
    · obtain ⟨clock, datagram, login, material, hdatagram, hadmits, -⟩ :=
        session?_step_none hsound world hbefore hafter
      rw [login?_eq_none hlogin hdatagram] at hadmits
      cases hadmits
    · rw [session?_step_some hreachable world hbefore hafter, (Session.identity_run _ _ _).2]
      exact h session hbefore
  · intro routed hmem hclient
    obtain ⟨clock, datagram, arrival, hdatagram, haccept, hrouted⟩ := published_step hmem
    rw [hclient] at hdatagram haccept
    rcases accept_eq_ok_iff.mp haccept with ⟨login, material, session, hadmits, -⟩ | ⟨-, hopened⟩
    · rw [login?_eq_none hlogin hdatagram] at hadmits
      cases hadmits
    · obtain ⟨session, receipt, hsession, -, rfl⟩ := acceptEncrypted_eq_ok_iff.mp hopened
      exact (labels_of_mem hrouted).2.trans (h session hsession)

/-- The same along a run. -/
theorem Bound.run (hloaded : book.Loaded)
    (h : Bound client character (run world (fresh config book provider adjustment) ops).relay)
    {more : List Op}
    (hlogin : ∀ found ∈ trace world (Relay.run world (fresh config book provider adjustment) ops)
      more, found.login? client = none) :
    Bound client character
        (Relay.run world (Relay.run world (fresh config book provider adjustment) ops) more).relay ∧
      ∀ found ∈ trace world (Relay.run world (fresh config book provider adjustment) ops) more,
        ∀ routed ∈ found.published, routed.client = client → routed.character = character := by
  -- the first of the operations goes to the end of the run before
  induction more generalizing ops with
  | nil => exact ⟨h, fun _ hmem => absurd hmem List.not_mem_nil⟩
  | cons op rest ih =>
    have hnext : Relay.run world (fresh config book provider adjustment) (ops ++ [op]) =
        (Relay.step world (Relay.run world (fresh config book provider adjustment) ops)
          op).after := by
      rw [run_append]
      rfl
    obtain ⟨hafter, hpublished⟩ := h.step hloaded (hlogin _ List.mem_cons_self)
    rw [← hnext] at hafter
    obtain ⟨hlast, hlater⟩ := ih hafter fun found hmem =>
      hlogin found (List.mem_cons_of_mem _ (hnext ▸ hmem))
    rw [hnext] at hlast hlater
    refine ⟨hlast, ?_⟩
    intro found hmem
    rcases List.mem_cons.mp hmem with rfl | hmem
    · exact hpublished
    · exact hlater found hmem

end Bound

/-- Which logins are accepted: those that are valid and whose character has a key. -/
theorem map_admits?_eq_some_iff {relay : Relay} {datagram : Bytes} {login : Login}
    (clock : Clock) (client : Address) :
    (relay.admits? datagram).map (·.1) = some login ↔
      Login.parse? datagram = .ok (some login) ∧
        ∃ arrival, (relay.accept clock client datagram).1 = .ok arrival := by
  constructor
  · intro h
    obtain ⟨⟨found, material⟩, hadmits, rfl⟩ := Option.map_eq_some_iff.mp h
    obtain ⟨session, after, -, haccept, -⟩ := accept_of_admits clock client hadmits
    exact ⟨(admits?_eq_some_iff.mp hadmits).1, _, congrArg Prod.fst haccept⟩
  · rintro ⟨hparse, arrival, haccept⟩
    rcases accept_eq_ok_iff.mp haccept with ⟨found, material, session, hadmits, -⟩ | ⟨hclear, -⟩
    · have hfound := (admits?_eq_some_iff.mp hadmits).1
      rw [hparse] at hfound
      rw [hadmits]
      exact (Except.ok.inj hfound).symm
    · rw [hparse] at hclear
      cases hclear

/-! ### A client that logs in twice -/

/-- **What a client sends under its key** is accepted, and carries the character of its
session. -/
theorem exists_acceptEncrypted {lengths : Code.Lengths} {relay : Relay} {session : Session}
    (hbook : lengths.book = .ok relay.book) (hscratch : relay.scratch.size = maxDatagramSize)
    (hsession : relay.session? client = some session) (clock : Clock) (header : Header)
    (packets : List SubPacket) (hpayload : ∀ packet ∈ packets, packet.payload.length ≤ 504)
    (hregion : (region packets ++ [0]).length ≤ maxDatagramSize) :
    ∃ datagram, (relay.acceptEncrypted clock client datagram).1 =
      .ok ⟨client, session.character, session.receiptOf .current header packets⟩ := by
  obtain ⟨clear, pool, -, hreceive⟩ := Session.exists_receive hbook session relay.scratch
    clock.now header packets hscratch hpayload hregion
  exact ⟨_, acceptEncrypted_eq_ok_iff.mpr
    ⟨session, _, hsession, congrArg Prod.fst hreceive, rfl⟩⟩

/-- After a login for one character and another for a second one, the client's session is one of
the first, and an encrypted datagram of the client is accepted as the first one's. -/
theorem accept_entered : ∃ session datagram,
    (entered [7, 8]).relay.session? (.v4 127 0 0 1 5000) = some session ∧
      session.character = 7 ∧
      ((entered [7, 8]).relay.acceptEncrypted ⟨1, 0⟩ (.v4 127 0 0 1 5000) datagram).1 =
        .ok ⟨.v4 127 0 0 1 5000, 7,
          session.receiptOf .current ⟨2, 0, 0⟩ [⟨0x15, 2, [1, 2, 3, 4]⟩]⟩ ∧
      session.forwarded ⟨2, 0, 0⟩ [⟨0x15, 2, [1, 2, 3, 4]⟩] = [⟨0x15, 2, [1, 2, 3, 4]⟩] := by
  have hheld : ((entered [7, 8]).relay.session? (.v4 127 0 0 1 5000)).map
      (fun held => (held.character, held.clientSequence)) = some (7, 1) := by decide +kernel
  have hscratch : (entered [7, 8]).relay.scratch.size = maxDatagramSize := by decide +kernel
  obtain ⟨session, hsession, hvalues⟩ := Option.map_eq_some_iff.mp hheld
  obtain ⟨hcharacter, hsequence⟩ := Prod.mk.inj hvalues
  have hbook : Code.Lengths.standard.book = .ok (entered [7, 8]).relay.book := by
    rw [entered, newcomer, book_run]
    exact book_eq_bookOf .standard
  obtain ⟨datagram, haccept⟩ := exists_acceptEncrypted hbook hscratch hsession ⟨1, 0⟩ ⟨2, 0, 0⟩
    [⟨0x15, 2, [1, 2, 3, 4]⟩] (by decide) (by decide)
  rw [hcharacter] at haccept
  have hforwards : session.forwards ⟨2, 0, 0⟩ ⟨0x15, 2, [1, 2, 3, 4]⟩ = true := by
    rw [Session.forwards, hsequence]
    decide
  have hdelivered : [SubPacket.mk 0x15 2 [1, 2, 3, 4]].map (·.delivered) =
      [⟨0x15, 2, [1, 2, 3, 4]⟩] := by decide
  refine ⟨session, datagram, hsession, hcharacter, haccept, ?_⟩
  rw [Session.forwarded, hdelivered, List.filter_singleton, hforwards]
  rfl

/-! ### The character of a client -/

/-- **Whom a login labels.** Take any run, and behind it an operation that handles a login which
is accepted. What is published with the login carries the login's character. The client has a
session afterwards: one of that character, unless it had a session before, which keeps its own. In
that case it is the earlier session itself that is kept, and it has received the login, after it
gave up a pending change of key and started its numbers over if the login asks for that. And up to
the next login of the client that is accepted, whatever else happens, its session stays one of that
character, and all that is published from it carries it. -/
theorem login_labels (config : Config) {book : Code.Book} (hloaded : book.Loaded)
    (provider : KeyProvider) (adjustment : KeyAdjustment) (world : World) (ops : List Op) {op : Op}
    {clock : Clock} {client : Address} {datagram : Bytes} {login : Login} {arrival : Arrival}
    (hop : op.datagram? = some (clock, client, datagram))
    (hparse : Login.parse? datagram = .ok (some login))
    (haccept : ((run world (fresh config book provider adjustment) ops).relay.accept clock client
      datagram).1 = .ok arrival) :
    let before := run world (fresh config book provider adjustment) ops
    let found := step world before op
    let character := ((before.relay.session? client).map (·.character)).getD login.character
    (arrival.client = client ∧ arrival.character = login.character) ∧
      (∀ routed ∈ found.published,
        routed.client = client ∧ routed.character = login.character) ∧
      (∃ session, found.after.relay.session? client = some session ∧
        session.character = character) ∧
      (∀ held, before.relay.session? client = some held → found.after.relay.session? client =
        some ((renew held login).receiveLogin clock.now datagram login).2) ∧
      ∀ more, (∀ later ∈ trace world found.after more, later.login? client = none) →
        Bound client character (run world found.after more).relay ∧
          ∀ later ∈ trace world found.after more, ∀ routed ∈ later.published,
            routed.client = client → routed.character = character := by
  intro before found character
  have hsound := sound_run (Sound.fresh config book provider adjustment) world ops
  have hknown := (map_admits?_eq_some_iff clock client).mpr ⟨hparse, arrival, haccept⟩
  obtain ⟨⟨login, material⟩, hadmits, rfl⟩ := Option.map_eq_some_iff.mp hknown
  obtain ⟨session, after, hentrant, heq, -⟩ := accept_of_admits clock client hadmits
  have hlabels : ∀ other, (before.relay.accept clock client datagram).1 = .ok other →
      other.client = client ∧ other.character = login.character := by
    intro other hother
    rw [heq] at hother
    cases hother
    exact ⟨rfl, rfl⟩
  -- the session that the login goes to is the client's own, or one that the login starts
  have hcharacter : session.character = character := by
    rcases Option.or_eq_some_iff.mp hentrant with hheld | ⟨hnone, hnew⟩
    · have hcase : character = ((some session).map (·.character)).getD login.character :=
        congrArg (fun held => (held.map (·.character)).getD login.character) hheld
      exact hcase.symm
    · obtain ⟨-, other, known, hother, rfl⟩ := newcomer?_eq_some_iff.mp hnew
      obtain ⟨rfl, -⟩ := Prod.mk.inj (Option.some.inj (hadmits.symm.trans hother))
      have hcase : character =
          ((none : Option Session).map (·.character)).getD login.character :=
        congrArg (fun held => (held.map (·.character)).getD login.character) hnone
      exact hcase.symm
  have hafter : found.after.relay.session? client =
      some (session.run before.relay.book (before.relay.dealings clock datagram)) := by
    rw [session?_datagram world hsound.room hop, if_pos rfl, hentrant]
    rfl
  have hbound : (session.run before.relay.book
      (before.relay.dealings clock datagram)).character = character :=
    (Session.identity_run _ _ _).2.trans hcharacter
  refine ⟨hlabels arrival haccept, ?_, ⟨_, hafter, hbound⟩, ?_, ?_⟩
  · intro routed hmem
    obtain ⟨clock', datagram', arrival', hdatagram, hother, hrouted⟩ := published_step hmem
    rw [hop] at hdatagram
    cases hdatagram
    obtain ⟨hclient, hlabel⟩ := hlabels arrival' hother
    exact ⟨rfl, (labels_of_mem hrouted).2.trans hlabel⟩
  · intro held hheld
    have hsame : session = held := by
      rcases Option.or_eq_some_iff.mp hentrant with hfound | ⟨hnone, -⟩
      · exact Option.some.inj (hfound.symm.trans hheld)
      · rw [hheld] at hnone
        cases hnone
    rw [hafter, hsame, run_dealings before.relay.book clock hadmits]
  · intro more hlogin
    have hfound : found.after =
        run world (fresh config book provider adjustment) (ops ++ [op]) := by
      rw [run_append]
      rfl
    rw [hfound] at hafter hlogin ⊢
    have hstart : Bound client character
        (run world (fresh config book provider adjustment) (ops ++ [op])).relay := by
      intro held hheld
      rw [hafter] at hheld
      rw [← Option.some.inj hheld]
      exact hbound
    exact hstart.run hloaded hlogin

/-- The client logs in again, and then another client does so for another character: the session
stays with the first one. -/
theorem login_labels_again :
    let again := (step (answering (.ok ())) (entered [7]) (entry 7)).after
    let later := run (answering (.ok ())) again
      [.handle ⟨1, 0⟩ (.v4 127 0 0 1 5001) (Login.datagram 8 0 1 [])]
    (∃ session, again.relay.session? (.v4 127 0 0 1 5000) = some session ∧
        session.character = 7) ∧
      Bound (.v4 127 0 0 1 5000) 7 later.relay := by
  have hknown : ((entered [7]).relay.admits? (Login.datagram 7 0 1 [])).map (·.1) =
      some ⟨⟨1, 0, 0⟩, 7, 0⟩ := by decide +kernel
  have hheld : ((entered [7]).relay.session? (.v4 127 0 0 1 5000)).map (·.character) =
      some 7 := by decide +kernel
  obtain ⟨hparse, arrival, haccept⟩ :=
    (map_admits?_eq_some_iff ⟨0, 0⟩ (.v4 127 0 0 1 5000)).mp hknown
  obtain ⟨-, -, hsession, -, hlater⟩ := login_labels .standard (loaded_bookOf .standard)
    (fun _ => .ok ⟨.ofText "secret", false⟩) .none (answering (.ok ())) ([7].map entry)
    (rfl : (entry 7).datagram? = _) hparse haccept
  rw [← newcomer, ← entered, hheld] at hsession hlater
  refine ⟨hsession, (hlater _ fun later hmem => ?_).1⟩
  obtain rfl := List.mem_singleton.mp hmem
  rfl

/-- **The label of the first login.** A client with a session of one character logs in for
another. The login is accepted and labelled with the second character; the session afterwards is
still one of the first, and so is all that the client sends under its key. -/
theorem label_of_first_login : ∃ arrival session datagram later,
    Login.parse? (Login.datagram 8 0 1 []) = .ok (some ⟨⟨1, 0, 0⟩, 8, 0⟩) ∧
      ((entered [7]).relay.accept ⟨0, 0⟩ (.v4 127 0 0 1 5000) (Login.datagram 8 0 1 [])).1 =
        .ok arrival ∧ arrival.character = 8 ∧
      (step (answering (.ok ())) (entered [7]) (entry 8)).after.relay.session?
        (.v4 127 0 0 1 5000) = some session ∧ session.character = 7 ∧
      ((step (answering (.ok ())) (entered [7]) (entry 8)).after.relay.acceptEncrypted ⟨1, 0⟩
        (.v4 127 0 0 1 5000) datagram).1 = .ok later ∧
      (routedOf later).map (·.character) = [7] := by
  have hknown : ((entered [7]).relay.admits? (Login.datagram 8 0 1 [])).map (·.1) =
      some ⟨⟨1, 0, 0⟩, 8, 0⟩ := by decide +kernel
  obtain ⟨⟨login, material⟩, hadmits, rfl⟩ := Option.map_eq_some_iff.mp hknown
  obtain ⟨_, after, -, haccept, -⟩ :=
    accept_of_admits ⟨0, 0⟩ (.v4 127 0 0 1 5000) hadmits
  obtain ⟨session, datagram, hsession, hcharacter, hlater, hforwarded⟩ := accept_entered
  have hafter : (step (answering (.ok ())) (entered [7]) (entry 8)).after = entered [7, 8] := rfl
  rw [hafter]
  refine ⟨_, session, datagram, _, (admits?_eq_some_iff.mp hadmits).1,
    congrArg Prod.fst haccept, rfl, hsession, hcharacter, hlater, ?_⟩
  rw [routedOf, Session.receiptOf, hforwarded]
  rfl

/-! ### Keys -/

namespace Tenure

variable {first : State} {ops : List Op}

/-- How often the datagrams of a session have changed its key. -/
def rotations (book : Code.Book) (tenure : Tenure world first ops client) : Nat :=
  (Session.assemblies book tenure.origin tenure.history).countP (·.rotated)

/-- **A tenure vouches for a datagram**: the datagram's digest holds under the key that the
session started with, changed as often as the session's own datagrams have changed it, or once
less. -/
def Vouches (book : Code.Book) (tenure : Tenure world first ops client) (datagram : Bytes) :
    Prop :=
  ∃ changes, (changes = tenure.rotations book ∨ changes + 1 = tenure.rotations book) ∧
    verifyChecksum ((Cipher.Key.incremented^[changes] tenure.key).schedule.decryptPacket
      headerSize datagram) = true

end Tenure

/-- What is accepted under the key of a session is vouched for by the session's tenure. -/
theorem vouched_of_acceptEncrypted (config : Config) {book : Code.Book} (hloaded : book.Loaded)
    (provider : KeyProvider) (adjustment : KeyAdjustment) (world : World) (ops : List Op)
    {clock : Clock} {client : Address} {datagram : Bytes} {arrival : Arrival}
    (h : ((run world (fresh config book provider adjustment) ops).relay.acceptEncrypted clock
      client datagram).1 = .ok arrival) :
    arrival.client = client ∧
      ∃ tenure : Tenure world (fresh config book provider adjustment) ops client,
        tenure.login.character = arrival.character ∧ tenure.Vouches book datagram := by
  have hbook : (run world (fresh config book provider adjustment) ops).relay.book = book :=
    book_run config book provider adjustment world ops
  obtain ⟨session, receipt, hsession, hreceipt, rfl⟩ := acceptEncrypted_eq_ok_iff.mp h
  -- a run of a session from its start, of which the keys are known
  obtain ⟨tenure, rfl⟩ := exists_tenure config hloaded provider adjustment world ops hsession
  rw [hbook] at hreceipt
  refine ⟨rfl, tenure, (Session.identity_run book tenure.origin tenure.history).2.symm, ?_⟩
  obtain ⟨changes, hchanges, hverify⟩ := Session.exists_key_of_receive hreceipt
  refine ⟨changes, ?_, hverify⟩
  rw [Tenure.rotations, ← Session.rotations_eq_countP tenure.rotateKey_not_mem_history]
  exact hchanges

/-- **Whose key opens what is published.** Take any run, with whatever logins, of any characters
and from any clients. What is published from an encrypted datagram carries the address of its
sender, and the character of the login that gave the sender its session; and the datagram's
digest holds under the key that this character had at that login, changed as often as the
datagrams of the session have changed it since, or once less. The same holds of all that is
accepted under the key of a session, whatever becomes of it. -/
theorem traffic_attributed (config : Config) {book : Code.Book} (hloaded : book.Loaded)
    (provider : KeyProvider) (adjustment : KeyAdjustment) (world : World) (ops : List Op) :
    let first := fresh config book provider adjustment
    let state := run world first ops
    (∀ op, ∀ routed ∈ (step world state op).published, ∃ clock datagram,
        op.datagram? = some (clock, routed.client, datagram) ∧
        (Login.parse? datagram = .ok none →
          ∃ tenure : Tenure world first ops routed.client,
            tenure.login.character = routed.character ∧ tenure.Vouches book datagram)) ∧
      ∀ clock client datagram arrival,
        (state.relay.acceptEncrypted clock client datagram).1 = .ok arrival →
          arrival.client = client ∧ ∃ tenure : Tenure world first ops client,
            tenure.login.character = arrival.character ∧ tenure.Vouches book datagram := by
  intro first state
  have hvouched : ∀ clock client datagram arrival,
      (state.relay.acceptEncrypted clock client datagram).1 = .ok arrival →
        arrival.client = client ∧ ∃ tenure : Tenure world first ops client,
          tenure.login.character = arrival.character ∧ tenure.Vouches book datagram := by
    intro clock client datagram arrival haccept
    exact vouched_of_acceptEncrypted config hloaded provider adjustment world ops haccept
  refine ⟨?_, hvouched⟩
  intro op routed hmem
  obtain ⟨clock, datagram, arrival, hdatagram, haccept, hrouted⟩ := published_step hmem
  refine ⟨clock, datagram, hdatagram, ?_⟩
  intro hclear
  -- a datagram that reads as none is no login, so it was accepted under a key
  rcases accept_eq_ok_iff.mp haccept with ⟨login, material, session, hadmits, -⟩ | ⟨-, hopened⟩
  · rw [(admits?_eq_some_iff.mp hadmits).1] at hclear
    cases hclear
  · rw [(labels_of_mem hrouted).2]
    exact (hvouched clock routed.client datagram arrival hopened).2

/-- A client that has logged in for one character and then for another sends a datagram: it is
accepted as the first one's, and the key of the first login opens it. -/
theorem traffic_attributed_reentered : ∃ datagram arrival,
    ((entered [7, 8]).relay.acceptEncrypted ⟨1, 0⟩ (.v4 127 0 0 1 5000) datagram).1 =
      .ok arrival ∧ arrival.character = 7 ∧
    ∃ tenure : Tenure (answering (.ok ())) newcomer ([7, 8].map entry) (.v4 127 0 0 1 5000),
      tenure.login.character = 7 ∧ tenure.Vouches (bookOf .standard) datagram := by
  obtain ⟨session, datagram, -, -, haccept, -⟩ := accept_entered
  obtain ⟨-, hencrypted⟩ := traffic_attributed .standard (loaded_bookOf .standard)
    (fun _ => .ok ⟨.ofText "secret", false⟩) .none (answering (.ok ())) ([7, 8].map entry)
  rw [← newcomer, ← entered] at hencrypted
  obtain ⟨-, tenure, hcharacter, hvouches⟩ := hencrypted _ _ _ _ haccept
  exact ⟨datagram, _, haccept, rfl, tenure, hcharacter, hvouches⟩

end Relay

end ZoneRelay
