import ZoneRelay.Proofs.Relay.Conservation
import ZoneRelay.Proofs.Relay.Isolation
import ZoneRelay.Proofs.Session.Rotation

/-!
# The history of a session

A session in the table was started by a login, and since then it has only changed by operations
of its own: those that a datagram comes to (`ZoneRelay.Relay.dealings`), and packing, when its
queue is emptied or a sign of life is sent. So **behind every session stands a login of its
client and a run of the session itself** (`ZoneRelay.Relay.exists_tenure`), whatever else has
happened in between, to other clients or to this one. What is known of runs of a session
therefore holds for the sessions of a relay.

What a step does to a session is `ZoneRelay.Relay.Step.dealings`.

| an operation | what it comes to |
|---|---|
| handles a datagram of the client | the dealings of the datagram |
| sends it a sign of life | packing nothing |
| empties the queues | packing what waits, once for each datagram that is written |
| anything else | nothing |

The login and all that follows make up a tenure (`ZoneRelay.Relay.Tenure`): the client had no
session before it, and has had one ever since. So there is only one.
-/

namespace ZoneRelay

open ZoneRelay.Frame (SubPacket)

namespace Relay

open World

variable {config : Config} {book : Code.Book} {operations gone : Nat} {state : State}
  {client : Address}

/-! ### Packing -/

/-- Packing what waits for a client, as many datagrams as there are rounds, each from what the one
before left. -/
def packings (book : Code.Book) (limit : Nat) (timestamp : UInt32) :
    (rounds : Nat) → Session → List SubPacket → List Session.Op
  | 0, _, _ => []
  | rounds + 1, session, waiting =>
    .assemble limit timestamp waiting ::
      match session.assemble book limit timestamp waiting with
      | (.ok datagram, after) =>
        packings book limit timestamp rounds after (waiting.drop datagram.consumed)
      | (.error _, _) => []

/-- **A chain of datagrams is a run of the session**, which packs one after the other. -/
theorem Chain.run_packings {limit : Nat} {timestamp : UInt32} {session last : Session}
    {waiting back : List SubPacket} {dispatches : List Dispatch}
    (h : Chain book limit timestamp session waiting dispatches back last) :
    session.run book (packings book limit timestamp dispatches.length session waiting) = last := by
  induction h with
  | emptied session => rfl
  | refused hpacks hresult =>
    rw [List.length_singleton, packings, hpacks.assemble_eq, Session.run_cons,
      Session.step_assemble, hpacks.assemble_eq]
    rfl
  | taken hpacks hresult hnext ih =>
    rw [List.length_cons, packings, hpacks.assemble_eq, Session.run_cons, Session.step_assemble,
      hpacks.assemble_eq]
    exact ih

/-! ### What a step does to a session -/

/-- **What a step does to a client's session.** -/
def Step.dealings (client : Address) (step : Step) : List Session.Op :=
  match step.op with
  | .handle clock sender datagram | .receive clock sender datagram =>
    if sender = client then step.before.relay.dealings clock datagram else []
  | .keepAlive clock addressee =>
    if addressee = client then [.assemble step.before.relay.packetLimit clock.timestamp []] else []
  | .flush clock =>
    match step.before.relay.session? client with
    | some session =>
      packings step.before.relay.book step.before.relay.packetLimit clock.timestamp
        (step.effects.countP (Effect.isTo client)) session
        (step.before.relay.queues.waiting client)
    | none => []
  | _ => []

/-- No step only changes a key. -/
theorem rotateKey_not_mem_dealings (client : Address) (found : Step) :
    Session.Op.rotateKey ∉ found.dealings client := by
  have hdatagram : ∀ (relay : Relay) (clock : Clock) (datagram : Bytes),
      Session.Op.rotateKey ∉ relay.dealings clock datagram := by
    intro relay clock datagram
    unfold dealings
    split
    · simp
    · split <;> simp
    · simp
  have hpackings : ∀ (book : Code.Book) (limit : Nat) (timestamp : UInt32) (rounds : Nat)
      (session : Session) (waiting : List SubPacket),
      Session.Op.rotateKey ∉ packings book limit timestamp rounds session waiting := by
    intro book limit timestamp rounds
    induction rounds with
    | zero => exact fun _ _ => List.not_mem_nil
    | succ rounds ih =>
      intro session waiting hmem
      rcases List.mem_cons.mp hmem with heq | hmem
      · cases heq
      · split at hmem
        · exact ih _ _ hmem
        · cases hmem
  unfold Step.dealings
  split
  · split
    · exact hdatagram _ _ _
    · exact List.not_mem_nil
  · split
    · exact hdatagram _ _ _
    · exact List.not_mem_nil
  · split <;> simp
  · split
    · exact hpackings _ _ _ _ _ _
    · exact List.not_mem_nil
  · exact List.not_mem_nil

theorem dealings_datagram (world : World) (state : State) {op : Op} {clock : Clock}
    {sender : Address} {datagram : Bytes} (h : op.datagram? = some (clock, sender, datagram))
    (client : Address) : (step world state op).dealings client =
      if sender = client then state.relay.dealings clock datagram else [] := by
  cases op with
  | handle | receive =>
    cases h
    rfl
  | enqueue | enqueueRouted | takeReply | flush | keepAlive | sweep | disconnect | provide =>
    cases h

/-- Putting packets into a queue changes no session. -/
theorem session?_enqueue (relay : Relay) (addressee : Address) (packets : List SubPacket)
    (other : Address) :
    (relay.enqueue addressee packets).2.session? other = relay.session? other := by
  rw [enqueue]
  split <;> rfl

/-- Emptying the queues is packing for each client that has a session. -/
theorem session?_flush (hreachable : Reachable state.relay) (world : World) (clock : Clock)
    {session : Session} (hsession : state.relay.session? client = some session) :
    (step world state (.flush clock)).after.relay.session? client =
      some (session.run state.relay.book ((step world state (.flush clock)).dealings client)) := by
  obtain ⟨effects, after, hperform, -, -, hclients⟩ :=
    perform_flush hreachable world clock state.journal
  have hafter : (step world state (.flush clock)).after = ⟨after, state.journal ++ effects⟩ := by
    rw [step, Op.apply, perform_bind, hperform]
    rfl
  have heffects : (step world state (.flush clock)).effects = effects := by
    rw [Step.effects, hafter]
    exact List.drop_left
  have hdealings : (step world state (.flush clock)).dealings client =
      packings state.relay.book state.relay.packetLimit clock.timestamp
        (effects.countP (Effect.isTo client)) session (state.relay.queues.waiting client) := by
    have hbefore : (step world state (.flush clock)).before = state := rfl
    have hop : (step world state (.flush clock)).op = .flush clock := rfl
    simp only [Step.dealings, hop, heffects, hbefore, hsession]
  rw [hafter, hdealings]
  rcases hclients client with ⟨-, huntouched⟩ |
    ⟨found, dispatches, back, last, hfound, hchain, hsent, hlast, -⟩
  · rw [List.countP_eq_length_filter, huntouched.silent]
    exact huntouched.session_eq.trans hsession
  · obtain rfl : session = found := Option.some.inj (hsession.symm.trans hfound)
    rw [List.countP_eq_length_filter, hsent, List.length_map, hchain.run_packings]
    exact hlast

/-- **A session that stays is changed by the dealings of the step.** -/
theorem session?_step_some (hreachable : Reachable state.relay) (world : World) {op : Op}
    {session after : Session} (hbefore : state.relay.session? client = some session)
    (hafter : (step world state op).after.relay.session? client = some after) :
    after = session.run state.relay.book ((step world state op).dealings client) := by
  obtain ⟨config, book, operations, gone, -, hsound⟩ := hreachable.sound
  have hsame : (step world state op).after.relay.session? client = state.relay.session? client →
      after = session.run state.relay.book [] := by
    intro heq
    rw [heq, hbefore] at hafter
    exact (Option.some.inj hafter).symm
  rcases hdatagram : op.datagram? with _ | ⟨clock, sender, datagram⟩
  · cases op with
    | handle | receive => cases hdatagram
    | enqueue addressee packets => exact hsame (session?_enqueue state.relay addressee _ client)
    | enqueueRouted routed => exact hsame (session?_enqueue state.relay _ _ client)
    | takeReply reply =>
      rcases reply with fault | routed
      · exact hsame rfl
      · exact hsame (session?_enqueue state.relay _ _ client)
    | flush clock =>
      rw [session?_flush hreachable world clock hbefore] at hafter
      exact (Option.some.inj hafter).symm
    | keepAlive clock addressee =>
      have hdealings : (step world state (.keepAlive clock addressee)).dealings client =
          if addressee = client then
            [.assemble state.relay.packetLimit clock.timestamp []] else [] := rfl
      rw [hdealings]
      have hkept := (session?_keepAlive world state.journal state.relay clock addressee
        client).symm.trans hafter
      by_cases haddressee : client = addressee
      · rw [if_pos haddressee, ← haddressee, hbefore] at hkept
        rw [if_pos haddressee.symm]
        exact (Option.some.inj hkept).symm
      · rw [if_neg haddressee, hbefore] at hkept
        rw [if_neg (Ne.symm haddressee)]
        exact (Option.some.inj hkept).symm
    | sweep clock busy =>
      -- a session that is still there was not idle, or it was busy
      refine hsame (hafter.trans (Eq.symm ?_))
      change (state.relay.sweepExcept clock busy).2.session? client = some after at hafter
      unfold sweepExcept at hafter
      simp only at hafter
      split at hafter
      · exact hafter
      · exact state.relay.sessions.get?_of_evictIdle clock.now _ busy hsound.balanced.nodup hafter
    | disconnect addressee =>
      refine hsame (hafter.trans (Eq.symm ?_))
      have hremoved := (state.relay.sessions.get?_remove addressee client).symm.trans hafter
      split at hremoved
      · cases hremoved
      · exact hremoved
    | provide provider => exact hsame rfl
  · rw [dealings_datagram world state hdatagram]
    rw [session?_datagram world hsound.room hdatagram] at hafter
    by_cases hsender : sender = client
    · rw [if_pos hsender.symm, hsender, hbefore] at hafter
      rw [if_pos hsender]
      exact (Option.some.inj hafter).symm
    · rw [if_neg (Ne.symm hsender)] at hafter
      rw [if_neg hsender]
      split at hafter
      · cases hafter
      · rw [hbefore] at hafter
        exact (Option.some.inj hafter).symm

/-- **A session that is new was started by a login** of its client, and changed by its
dealings. -/
theorem session?_step_none (h : Sound config book operations gone state.relay) (world : World)
    {op : Op} {after : Session} (hbefore : state.relay.session? client = none)
    (hafter : (step world state op).after.relay.session? client = some after) :
    ∃ clock datagram login material, op.datagram? = some (clock, client, datagram) ∧
      state.relay.admits? datagram = some (login, material) ∧
      after = (Session.start client login.character (state.relay.adjustment material)
        clock.now).run state.relay.book ((step world state op).dealings client) := by
  rcases hdatagram : op.datagram? with _ | ⟨clock, sender, datagram⟩
  · -- without a datagram nobody joins
    have hmem := (clients_sublist h world hdatagram).subset
      (SessionTable.isSome_get?_iff.mp (Option.isSome_iff_exists.mpr ⟨after, hafter⟩))
    exact absurd hmem (SessionTable.get?_eq_none_iff.mp hbefore)
  · rw [session?_datagram world h.room hdatagram] at hafter
    by_cases hsender : sender = client
    · obtain rfl : sender = client := hsender
      rw [if_pos rfl, hbefore, Option.none_or] at hafter
      obtain ⟨session, hnew, rfl⟩ := Option.map_eq_some_iff.mp hafter
      obtain ⟨-, login, material, hadmits, rfl⟩ := newcomer?_eq_some_iff.mp hnew
      refine ⟨clock, datagram, login, material, rfl, hadmits, ?_⟩
      rw [dealings_datagram world state hdatagram, if_pos rfl]
    · rw [if_neg (Ne.symm hsender), hbefore] at hafter
      split at hafter <;> cases hafter

/-- A run that is not empty ends where its last step does. -/
theorem exists_mem_trace (world : World) (state : State) (op : Op) (rest : List Op) :
    ∃ found ∈ trace world state (op :: rest), found.after = run world state (op :: rest) := by
  induction rest generalizing state op with
  | nil => exact ⟨step world state op, List.mem_cons_self, rfl⟩
  | cons next rest ih =>
    obtain ⟨found, hmem, hafter⟩ := ih (step world state op).after next
    exact ⟨found, List.mem_cons_of_mem _ hmem, hafter⟩

/-! ### Tenures -/

/-- **A tenure of a client**: of a run, the login that gave it a session when it had none, and all
that followed, which has left it with one. -/
structure Tenure (world : World) (first : State) (ops : List Op) (client : Address) where
  /-- The operations before the login. -/
  earlier : List Op
  /-- The operation that handles the login. -/
  entry : Op
  /-- The operations behind it. -/
  since : List Op
  clock : Clock
  datagram : Bytes
  login : Login
  /-- What is known of the key of the login's character at that time. -/
  material : KeyMaterial
  ops_eq : ops = earlier ++ entry :: since
  datagram_eq : entry.datagram? = some (clock, client, datagram)
  admits_eq : (run world first earlier).relay.admits? datagram = some (login, material)
  absent : (run world first earlier).relay.session? client = none
  present : ∀ found ∈ trace world (run world first earlier) (entry :: since),
    (found.after.relay.session? client).isSome

namespace Tenure

variable {world : World} {first : State} {ops : List Op} {op : Op}

/-- The key that the session started with. -/
def key (tenure : Tenure world first ops client) : Cipher.Key :=
  (run world first tenure.earlier).relay.adjustment tenure.material

/-- The session as it started. -/
def origin (tenure : Tenure world first ops client) : Session :=
  .start client tenure.login.character tenure.key tenure.clock.now

/-- All that was done to the session. -/
def history (tenure : Tenure world first ops client) : List Session.Op :=
  (trace world (run world first tenure.earlier) (tenure.entry :: tenure.since)).flatMap
    (Step.dealings client)

theorem run_eq (tenure : Tenure world first ops client) :
    run world (run world first tenure.earlier) (tenure.entry :: tenure.since) =
      run world first ops := by
  rw [← run_append, ← tenure.ops_eq]

/-- The steps of a tenure with one more behind them. -/
theorem trace_snoc (tenure : Tenure world first ops client) (op : Op) :
    trace world (run world first tenure.earlier) (tenure.entry :: (tenure.since ++ [op])) =
      trace world (run world first tenure.earlier) (tenure.entry :: tenure.since) ++
        [step world (run world first ops) op] := by
  rw [← List.cons_append, trace_append, tenure.run_eq]
  rfl

/-- A tenure goes on as long as there is a session. -/
def extend (tenure : Tenure world first ops client)
    (h : ((step world (run world first ops) op).after.relay.session? client).isSome) :
    Tenure world first (ops ++ [op]) client where
  earlier := tenure.earlier
  entry := tenure.entry
  since := tenure.since ++ [op]
  clock := tenure.clock
  datagram := tenure.datagram
  login := tenure.login
  material := tenure.material
  ops_eq := by
    conv_lhs => rw [tenure.ops_eq]
    rw [List.append_assoc, List.cons_append]
  datagram_eq := tenure.datagram_eq
  admits_eq := tenure.admits_eq
  absent := tenure.absent
  present found hfound := by
    rw [tenure.trace_snoc, List.mem_append, List.mem_singleton] at hfound
    rcases hfound with hearlier | rfl
    · exact tenure.present found hearlier
    · exact h

theorem history_extend (tenure : Tenure world first ops client)
    (h : ((step world (run world first ops) op).after.relay.session? client).isSome) :
    (tenure.extend h).history =
      tenure.history ++ (step world (run world first ops) op).dealings client := by
  have hsteps := congrArg (List.flatMap (Step.dealings client)) (tenure.trace_snoc op)
  rw [List.flatMap_append, List.flatMap_singleton] at hsteps
  exact hsteps

/-- A tenure begins with a login of a client without a session. -/
def enter {clock : Clock} {datagram : Bytes} {login : Login} {material : KeyMaterial}
    (hdatagram : op.datagram? = some (clock, client, datagram))
    (hadmits : (run world first ops).relay.admits? datagram = some (login, material))
    (habsent : (run world first ops).relay.session? client = none)
    (h : ((step world (run world first ops) op).after.relay.session? client).isSome) :
    Tenure world first (ops ++ [op]) client where
  earlier := ops
  entry := op
  since := []
  clock
  datagram
  login
  material
  ops_eq := rfl
  datagram_eq := hdatagram
  admits_eq := hadmits
  absent := habsent
  present found hfound := by
    obtain rfl := List.mem_singleton.mp hfound
    exact h

/-- Of two tenures neither begins before the other: it would have had a session where the other one
had none. -/
theorem not_length_lt (tenure other : Tenure world first ops client) :
    ¬ tenure.earlier.length < other.earlier.length := by
  intro hlt
  -- the login of the second tenure lies within the first one
  rcases List.append_eq_append_iff.mp (tenure.ops_eq.symm.trans other.ops_eq) with
    ⟨front, hearlier, hrest⟩ | ⟨front, hearlier, -⟩
  · cases front with
    | nil =>
      rw [hearlier, List.append_nil] at hlt
      exact absurd hlt (Nat.lt_irrefl _)
    | cons entry between =>
      obtain rfl := (List.cons.inj hrest).1
      obtain ⟨found, hmem, hafter⟩ :=
        exists_mem_trace world (run world first tenure.earlier) tenure.entry between
      have hheld := tenure.present found (by
        rw [hrest, trace_append]
        exact List.mem_append_left _ hmem)
      rw [hafter, ← run_append, ← hearlier, other.absent] at hheld
      cases hheld
  · rw [hearlier, List.length_append] at hlt
    omega

/-- **There is one tenure at most.** -/
instance : Subsingleton (Tenure world first ops client) where
  allEq tenure other := by
    have hlength : tenure.earlier.length = other.earlier.length :=
      Nat.le_antisymm (Nat.le_of_not_lt (other.not_length_lt tenure))
        (Nat.le_of_not_lt (tenure.not_length_lt other))
    -- both begin at the same place, and what is said of the login follows from the run
    obtain ⟨hearlier, hrest⟩ := List.append_inj (tenure.ops_eq.symm.trans other.ops_eq) hlength
    obtain ⟨hentry, hsince⟩ := List.cons.inj hrest
    obtain ⟨earlier, entry, since, clock, datagram, login, material, _, hdatagram, hadmits⟩ :=
      tenure
    obtain ⟨_, _, _, clock', datagram', login', material', _, hdatagram', hadmits'⟩ := other
    simp only at hearlier hentry hsince
    subst hearlier hentry hsince
    obtain ⟨rfl, hsent⟩ := Prod.mk.inj (Option.some.inj (hdatagram.symm.trans hdatagram'))
    obtain ⟨-, rfl⟩ := Prod.mk.inj hsent
    obtain ⟨rfl, rfl⟩ := Prod.mk.inj (Option.some.inj (hadmits.symm.trans hadmits'))
    rfl

/-- Nothing in a tenure only changes the key. -/
theorem rotateKey_not_mem_history (tenure : Tenure world first ops client) :
    Session.Op.rotateKey ∉ tenure.history := by
  intro hmem
  obtain ⟨found, -, hfound⟩ := List.mem_flatMap.mp hmem
  exact rotateKey_not_mem_dealings client found hfound

end Tenure

/-- **Behind every session stands a tenure of its client**: it is what became of the session that
the login started. -/
theorem exists_tenure (config : Config) {book : Code.Book} (hloaded : book.Loaded)
    (provider : KeyProvider) (adjustment : KeyAdjustment) (world : World) (ops : List Op)
    {client : Address} {session : Session}
    (h : (run world (fresh config book provider adjustment) ops).relay.session? client =
      some session) :
    ∃ tenure : Tenure world (fresh config book provider adjustment) ops client,
      session = tenure.origin.run book tenure.history := by
  -- on the operations from the end: the last one found a session, or it gave the client one
  induction ops using List.reverseRecOn generalizing session with
  | nil => cases h
  | append_singleton ops op ih =>
    generalize hfirst : fresh config book provider adjustment = first at *
    have hsound := sound_run (hfirst ▸ Sound.fresh config book provider adjustment) world ops
    have hreachable : Reachable (run world first ops).relay :=
      ⟨config, book, provider, adjustment, world, ops, hloaded, by rw [hfirst]⟩
    have hbook : (run world first ops).relay.book = book := hsound.balanced.book_eq
    rw [run_append] at h
    have hafter : (step world (run world first ops) op).after.relay.session? client =
        some session := h
    have hsome := Option.isSome_iff_exists.mpr ⟨session, hafter⟩
    rcases hbefore : (run world first ops).relay.session? client with _ | held
    · obtain ⟨clock, datagram, login, material, hdatagram, hadmits, rfl⟩ :=
        session?_step_none hsound world hbefore hafter
      refine ⟨.enter hdatagram hadmits hbefore hsome, ?_⟩
      have hhistory : (Tenure.enter hdatagram hadmits hbefore hsome).history =
          (step world (run world first ops) op).dealings client := List.append_nil _
      rw [hhistory, hbook]
      rfl
    · obtain ⟨tenure, rfl⟩ := ih hbefore
      refine ⟨tenure.extend hsome, ?_⟩
      rw [session?_step_some hreachable world hbefore hafter, tenure.history_extend,
        Session.run_append, hbook]
      rfl

/-! ### A client that has logged in -/

/-- Its session has the key of its character, and its numbers. -/
theorem session?_entered : ∃ session,
    (entered [7]).relay.session? (.v4 127 0 0 1 5000) = some session ∧
      session.current = .ofKey (.ofText "secret") ∧ session.character = 7 ∧
      session.clientSequence = 1 ∧ session.serverSequence = 0 := by
  have hheld : ((entered [7]).relay.session? (.v4 127 0 0 1 5000)).map (fun held =>
      (held.current.key, held.character, held.clientSequence, held.serverSequence)) =
        some (.ofText "secret", 7, 1, 0) := by decide +kernel
  obtain ⟨session, hsession, hvalues⟩ := Option.map_eq_some_iff.mp hheld
  simp only [Prod.mk.injEq] at hvalues
  obtain ⟨hkey, hcharacter, hclient, hserver⟩ := hvalues
  -- the cipher is that of the key, as it is for every session of a run
  obtain ⟨tenure, htenure⟩ := exists_tenure .standard (loaded_bookOf .standard)
    (fun _ => .ok ⟨.ofText "secret", false⟩) .none (answering (.ok ())) ([7].map entry) hsession
  have hreachable : Session.Reachable (bookOf .standard) session := by
    rw [htenure]
    exact ⟨_, _, _, _, _, rfl⟩
  exact ⟨session, hsession, hkey ▸ hreachable.keyed.1, hcharacter, hclient, hserver⟩

end Relay

end ZoneRelay
