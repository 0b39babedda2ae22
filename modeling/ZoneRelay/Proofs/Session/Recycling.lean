import Mathlib.Data.List.Forall2
import ZoneRelay.Proofs.Session.Acceptance

/-!
# Recycled buffers

The relay decompresses the datagrams of all its clients into buffers of one pool, and whoever else
wants a buffer can have one of the same. What a holder wrote stays in a buffer that is given back,
so the pool is full of what others were sent. **None of it shows**
(`ZoneRelay.Lending.nothing_carried_over`): a buffer that is handed out is all zeros, and what
comes of a datagram is what comes of it with a pool that was never used.

Buffers are told apart by the order in which they were handed out, and a `ZoneRelay.Lending` keeps
what has become of each. Its operations come in any order, between any number of holders.

| operation | the buffer | the pool |
|---|---|---|
| `acquire` | is held, all zeros | loses an idle one, if there is one |
| `write` | is written over from its start | stays |
| `drop` | is returned with its last contents | gains it, unless 1024 are idle |
| `detach` | is detached | stays |
| `receive` | is held and returned at once, if the datagram gets that far | `acquire`, then `drop` |

The invariant is `ZoneRelay.Lending.Sound`. Its main part is about where idle buffers come from
(`ZoneRelay.Lending.Traced`): each was returned under a number of its own, but for those that are
left of the beginning. A detached buffer is never returned, so it is not among them. The operations
are inverted once (`ZoneRelay.Lending.Turn`), and a run keeps what one of them keeps.

That a datagram takes its buffer like any other holder is a fact about `ZoneRelay.Session.receive`
(`ZoneRelay.Session.receive_pool`). It has no buffer when it is too short, when it does not decrypt,
or when the region in it is malformed.
-/

namespace ZoneRelay

open ZoneRelay.Frame

namespace Session

variable (book : Code.Book) (session : Session) (now : Instant) (datagram : Bytes)

/-- What a datagram leaves in the buffer that it is decompressed into, if it gets that far. -/
def scratchLeft? (size : Nat) : Option Bytes :=
  if datagram.length < headerSize + checksumSize + 1 then none
  else
    match (session.decrypt datagram).1 with
    | .error _ => none
    | .ok (_, clear) =>
      match compressedRegion clear with
      | .error _ => none
      | .ok (stream, bitCount) => some (book.decompress stream bitCount (Bytes.zeros size)).2

/-- **The contents of a pool do not show** in the header and the region of a datagram. -/
theorem openRegion_fst_congr {pool other : BufferPool} (h : pool.size = other.size)
    (clear : Bytes) : (openRegion book pool clear).1 = (openRegion book other clear).1 := by
  simp only [openRegion, unpack, BufferPool.acquire_fst, h]
  split
  · rfl
  · split <;> rfl

/-- Decompressing takes a buffer and gives it back. -/
theorem openRegion_snd (pool : BufferPool) (clear : Bytes) :
    (openRegion book pool clear).2 =
      match compressedRegion clear with
      | .error _ => pool
      | .ok (stream, bitCount) =>
        pool.acquire.2.release (book.decompress stream bitCount (Bytes.zeros pool.size)).2 := by
  rw [openRegion]
  rcases hheader : Header.ofDatagram clear with fault | header
  · -- what is too short for a header is too short for a stream
    rw [Header.ofDatagram] at hheader
    split at hheader
    · rename_i hshort
      rw [compressedRegion, if_pos (by simp only [headerSize] at hshort ⊢; omega)]
    · cases hheader
  · rcases compressedRegion clear with fault | ⟨stream, bitCount⟩
    · rfl
    · rw [← BufferPool.acquire_fst]
      rfl

/-- **What comes of a datagram does not depend on the contents of the pool.** -/
theorem receive_congr {pool other : BufferPool} (h : pool.size = other.size) :
    (session.receive book pool now datagram).1 = (session.receive book other now datagram).1 ∧
      (session.receive book pool now datagram).2.1 =
        (session.receive book other now datagram).2.1 := by
  rw [receive, receive]
  split
  · exact ⟨rfl, rfl⟩
  · rcases session.decrypt datagram with ⟨fault | ⟨opening, clear⟩, opened⟩
    · exact ⟨rfl, rfl⟩
    · have hsame := openRegion_fst_congr book h clear
      rcases hopen : openRegion book pool clear with ⟨result, after⟩
      rcases hopen' : openRegion book other clear with ⟨result', after'⟩
      rw [hopen, hopen'] at hsame
      obtain rfl : result = result' := hsame
      rcases result with fault | ⟨header, region⟩ <;> simp only [hopen, hopen', and_self]

/-- **A datagram is a holder like others**: it takes a buffer and gives it back, or it is refused
before it needs one. -/
theorem receive_pool (pool : BufferPool) :
    (session.receive book pool now datagram).2.2 =
      match session.scratchLeft? book datagram pool.size with
      | none => pool
      | some left => pool.acquire.2.release left := by
  rw [receive, scratchLeft?]
  split
  · rfl
  · rcases session.decrypt datagram with ⟨fault | ⟨opening, clear⟩, opened⟩
    · rfl
    · have hafter := openRegion_snd book pool clear
      rcases hopen : openRegion book pool clear with ⟨result, after⟩
      rw [hopen] at hafter
      rcases result with fault | ⟨header, region⟩
      all_goals
        simp only [hopen, hafter]
        rcases compressedRegion clear with fault' | ⟨stream, bitCount⟩ <;> rfl

end Session

/-! ### Loans -/

/-- **What has become of a buffer that was handed out**, and what is in it. -/
inductive Loan where
  /-- Its holder has it. -/
  | held (buffer : Bytes)
  /-- Its holder gave it back. -/
  | returned (buffer : Bytes)
  /-- Its holder took it away for good. -/
  | detached (buffer : Bytes)
  deriving DecidableEq

/-- A pool, and every buffer that it handed out so far, in order. -/
structure Lending where
  pool : BufferPool
  loans : List Loan

namespace Lending

/-- A new pool, of which nothing was handed out. -/
def start (count size : Nat) : Lending := ⟨.make count size, []⟩

/-- The contents of a buffer that is in the hands of its holder. -/
def held? (lending : Lending) (loan : Nat) : Option Bytes :=
  match lending.loans[loan]? with
  | some (.held buffer) => some buffer
  | _ => none

/-- What can be done with buffers. -/
inductive Op where
  /-- A buffer is handed out. -/
  | acquire
  /-- Bytes are written over the first ones of a buffer; what does not fit is left out. With enough
  of them a buffer can be given any contents. -/
  | write (loan : Nat) (bytes : Bytes)
  /-- A buffer is given back. -/
  | drop (loan : Nat)
  /-- The contents of a buffer are taken away, and what is left of it is given back. -/
  | detach (loan : Nat)
  /-- A datagram of a client is taken apart, of whatever session. -/
  | receive (session : Session) (now : Instant) (datagram : Bytes)

/-- A buffer with bytes written over its first ones. -/
def overwrite (buffer bytes : Bytes) : Bytes :=
  (bytes ++ buffer.drop bytes.length).take buffer.length

/-- Carries an operation out. Nothing can be done with a buffer that is not held any more. -/
def step (book : Code.Book) (lending : Lending) : Op → Lending
  | .acquire =>
    let (buffer, pool) := lending.pool.acquire
    ⟨pool, lending.loans ++ [.held buffer]⟩
  | .write loan bytes =>
    match lending.held? loan with
    | some buffer =>
      ⟨lending.pool, lending.loans.set loan (.held (overwrite buffer bytes))⟩
    | none => lending
  | .drop loan =>
    match lending.held? loan with
    | some buffer => ⟨lending.pool.release buffer, lending.loans.set loan (.returned buffer)⟩
    | none => lending
  | .detach loan =>
    match lending.held? loan with
    | some buffer => ⟨lending.pool.release [], lending.loans.set loan (.detached buffer)⟩
    | none => lending
  | .receive session now datagram =>
    ⟨(session.receive book lending.pool now datagram).2.2, lending.loans ++
      ((session.scratchLeft? book datagram lending.pool.size).map .returned).toList⟩

/-- Carries operations out one after the other. -/
def run (book : Code.Book) (lending : Lending) (ops : List Op) : Lending :=
  ops.foldl (step book) lending

variable {lending : Lending}

theorem held?_eq_some_iff {loan : Nat} {buffer : Bytes} :
    lending.held? loan = some buffer ↔ lending.loans[loan]? = some (.held buffer) := by
  rw [held?]
  split
  · rename_i h
    simp [h]
  · rename_i h
    simpa using h buffer

@[simp] theorem length_overwrite (buffer bytes : Bytes) :
    (overwrite buffer bytes).length = buffer.length := by
  rw [overwrite, List.length_take, List.length_append, List.length_drop]
  omega

/-! ### What an operation can do -/

/-- **The ways in which an operation can change a lending.** -/
inductive Turn (lending : Lending) : Lending → Prop
  /-- Nothing happens. -/
  | nothing : Turn lending lending
  /-- A buffer of zeros is handed out. -/
  | handedOut : Turn lending
      ⟨lending.pool.acquire.2, lending.loans ++ [.held (Bytes.zeros lending.pool.size)]⟩
  /-- A holder writes. -/
  | written {loan : Nat} {buffer : Bytes} (bytes : Bytes)
    (hheld : lending.held? loan = some buffer) :
    Turn lending ⟨lending.pool, lending.loans.set loan (.held (overwrite buffer bytes))⟩
  /-- A holder gives a buffer back. -/
  | returned {loan : Nat} {buffer : Bytes} (hheld : lending.held? loan = some buffer) :
    Turn lending ⟨lending.pool.release buffer, lending.loans.set loan (.returned buffer)⟩
  /-- A holder takes the contents away. -/
  | detached {loan : Nat} {buffer : Bytes} (hheld : lending.held? loan = some buffer) :
    Turn lending ⟨lending.pool, lending.loans.set loan (.detached buffer)⟩
  /-- A buffer is taken for a datagram and given back at once. -/
  | borrowed (left : Bytes) :
    Turn lending ⟨lending.pool.acquire.2.release left, lending.loans ++ [.returned left]⟩

theorem step_acquire (book : Code.Book) : lending.step book .acquire =
    ⟨lending.pool.acquire.2, lending.loans ++ [.held (Bytes.zeros lending.pool.size)]⟩ := by
  rw [← BufferPool.acquire_fst]
  rfl

theorem step_drop (book : Code.Book) {loan : Nat} {buffer : Bytes}
    (h : lending.held? loan = some buffer) : lending.step book (.drop loan) =
      ⟨lending.pool.release buffer, lending.loans.set loan (.returned buffer)⟩ := by
  rw [step, h]

theorem step_detach (book : Code.Book) {loan : Nat} {buffer : Bytes}
    (h : lending.held? loan = some buffer) : lending.step book (.detach loan) =
      ⟨lending.pool, lending.loans.set loan (.detached buffer)⟩ := by
  rw [step, h]
  simp only [BufferPool.release_nil]

theorem turn_step (book : Code.Book) (op : Op) : Turn lending (lending.step book op) := by
  cases op with
  | acquire =>
    rw [step_acquire]
    exact .handedOut
  | write loan bytes =>
    rw [step]
    split
    · rename_i hheld
      exact .written bytes hheld
    · exact .nothing
  | drop loan =>
    rw [step]
    split
    · rename_i hheld
      exact .returned hheld
    · exact .nothing
  | detach loan =>
    rw [step]
    split
    · rename_i hheld
      exact .detached hheld
    · exact .nothing
  | receive session now datagram =>
    rw [step, session.receive_pool]
    rcases session.scratchLeft? book datagram lending.pool.size with _ | left
    · rw [Option.map_none, Option.toList_none, List.append_nil]
      exact .nothing
    · exact .borrowed left

/-- What changes a buffer that is held leaves the others alone. -/
theorem getElem?_set_of_held {loan other : Nat} {buffer : Bytes} {fate after : Loan}
    (hheld : lending.held? loan = some buffer) (h : lending.loans[other]? = some fate)
    (hover : ∀ buffer, fate ≠ .held buffer) :
    (lending.loans.set loan after)[other]? = some fate := by
  have hne : loan ≠ other := by
    rintro rfl
    rw [held?_eq_some_iff, h] at hheld
    exact hover buffer (Option.some.inj hheld)
  rw [List.getElem?_set_ne hne, h]

/-- **A buffer that was given back or taken away is so for good.** -/
theorem Turn.getElem? {after : Lending} (hturn : Turn lending after) {loan : Nat} {fate : Loan}
    (h : lending.loans[loan]? = some fate) (hover : ∀ buffer, fate ≠ .held buffer) :
    after.loans[loan]? = some fate := by
  have happend : ∀ more, (lending.loans ++ more)[loan]? = some fate := by
    intro more
    rw [List.getElem?_append_left (List.getElem?_eq_some_iff.mp h).1, h]
  cases hturn with
  | nothing => exact h
  | handedOut => exact happend _
  | written bytes hheld => exact getElem?_set_of_held hheld h hover
  | returned hheld => exact getElem?_set_of_held hheld h hover
  | detached hheld => exact getElem?_set_of_held hheld h hover
  | borrowed left => exact happend _

theorem getElem?_run (book : Code.Book) (ops : List Op) {loan : Nat} {fate : Loan}
    (h : lending.loans[loan]? = some fate) (hover : ∀ buffer, fate ≠ .held buffer) :
    (lending.run book ops).loans[loan]? = some fate := by
  induction ops generalizing lending with
  | nil => exact h
  | cons op rest ih => exact ih ((turn_step book op).getElem? h hover)

/-! ### Where the idle buffers come from -/

/-- **Every idle buffer is accounted for.** Those in front were given back, each by a holder of its
own, who left in it what is in it now; the others, all zeros, are what is left of the `count` that
the pool was made with. -/
def Traced (count : Nat) (pool : BufferPool) (loans : List Loan) : Prop :=
  ∃ (sources : List Nat) (front : List Bytes) (rest : Nat),
    pool.idle = front ++ List.replicate rest (Bytes.zeros pool.size) ∧ rest ≤ count ∧
      sources.Nodup ∧
      List.Forall₂ (fun source buffer => loans[source]? = some (.returned buffer)) sources front

section Traced

variable {count : Nat} {pool : BufferPool} {loans after : List Loan}

/-- Nothing more is asked of the loans than that what was given back is there. -/
theorem Traced.mono (h : Traced count pool loans)
    (hkeep : ∀ {source : Nat} {buffer : Bytes}, loans[source]? = some (.returned buffer) →
      after[source]? = some (.returned buffer)) : Traced count pool after := by
  obtain ⟨sources, front, rest, hidle, hrest, hnodup, hall⟩ := h
  exact ⟨sources, front, rest, hidle, hrest, hnodup, hall.imp fun _ _ => hkeep⟩

/-- The buffer that is handed out leaves. -/
theorem Traced.acquire (h : Traced count pool loans) : Traced count pool.acquire.2 loans := by
  obtain ⟨sources, front, rest, hidle, hrest, hnodup, hall⟩ := h
  rw [BufferPool.acquire_snd]
  cases hall with
  | nil =>
    refine ⟨[], [], rest - 1, ?_, by omega, List.nodup_nil, .nil⟩
    simp only [hidle, List.nil_append, List.tail_replicate]
  | @cons source buffer sources front _ hall =>
    refine ⟨sources, front, rest, ?_, hrest, (List.nodup_cons.mp hnodup).2, hall⟩
    simp only [hidle, List.cons_append, List.tail_cons]

/-- The buffer that is given back comes from its holder, of whom no other is there. -/
theorem Traced.release (h : Traced count pool loans) (source : Nat) {buffer : Bytes}
    (hnew : ∀ other, loans[source]? ≠ some (.returned other))
    (hback : after[source]? = some (.returned buffer))
    (hkeep : ∀ {source : Nat} {buffer : Bytes}, loans[source]? = some (.returned buffer) →
      after[source]? = some (.returned buffer)) : Traced count (pool.release buffer) after := by
  have hmono := h.mono hkeep
  rcases buffer with _ | ⟨b, bytes⟩
  · exact hmono
  · rw [BufferPool.release_of_ne_nil pool (List.cons_ne_nil b bytes)]
    split
    · obtain ⟨sources, front, rest, hidle, hrest, hnodup, hall⟩ := h
      have hfresh : source ∉ sources := by
        intro hmem
        obtain ⟨i, hi, rfl⟩ := List.getElem_of_mem hmem
        exact hnew _ (hall.get hi (hall.length_eq ▸ hi))
      refine ⟨source :: sources, (b :: bytes) :: front, rest, ?_, hrest,
        List.nodup_cons.mpr ⟨hfresh, hnodup⟩, .cons hback (hall.imp fun _ _ => hkeep)⟩
      simp only [hidle, List.cons_append]
    · exact hmono

end Traced

/-! ### The invariant -/

theorem available_acquire_le (pool : BufferPool) :
    pool.acquire.2.available ≤ pool.available := by
  rw [BufferPool.acquire_snd, BufferPool.available, BufferPool.available, List.length_tail]
  omega

theorem available_release_le {pool : BufferPool} (h : pool.available ≤ BufferPool.maxIdle)
    (buffer : Bytes) : (pool.release buffer).available ≤ BufferPool.maxIdle := by
  rcases buffer with _ | ⟨b, bytes⟩
  · exact h
  · rw [BufferPool.release_of_ne_nil pool (List.cons_ne_nil b bytes)]
    split
    · assumption
    · exact h

/-- Every buffer in the hands of a holder has the size of the pool's buffers. -/
def Whole (size : Nat) (loans : List Loan) : Prop :=
  ∀ buffer, .held buffer ∈ loans → buffer.length = size

theorem Whole.append {size : Nat} {loans : List Loan} (h : Whole size loans) {fate : Loan}
    (hfate : ∀ buffer, fate = .held buffer → buffer.length = size) :
    Whole size (loans ++ [fate]) := by
  intro buffer hmem
  rcases List.mem_append.mp hmem with hmem | hmem
  · exact h buffer hmem
  · exact hfate buffer (List.mem_singleton.mp hmem).symm

theorem Whole.set {size : Nat} {loans : List Loan} (h : Whole size loans) (loan : Nat)
    {fate : Loan} (hfate : ∀ buffer, fate = .held buffer → buffer.length = size) :
    Whole size (loans.set loan fate) := by
  intro buffer hmem
  rcases List.mem_or_eq_of_mem_set hmem with hmem | heq
  · exact h buffer hmem
  · exact hfate buffer heq.symm

/-- **What holds after any operations**, of a pool that was made with `count` buffers of `size`
bytes. -/
structure Sound (count size : Nat) (lending : Lending) : Prop where
  size_eq : lending.pool.size = size
  available_le : lending.pool.available ≤ BufferPool.maxIdle
  whole : Whole size lending.loans
  traced : Traced count lending.pool lending.loans

/-- The buffer that a holder has. -/
theorem Sound.length_eq {count size : Nat} (h : Sound count size lending) {loan : Nat}
    {buffer : Bytes} (hheld : lending.held? loan = some buffer) : buffer.length = size :=
  h.whole buffer (List.mem_of_getElem? (held?_eq_some_iff.mp hheld))

theorem sound_start (count size : Nat) : Sound count size (start count size) where
  size_eq := rfl
  available_le := by
    rw [start, BufferPool.make, BufferPool.available, List.length_replicate]
    exact Nat.min_le_right _ _
  whole buffer h := by cases h
  traced := ⟨[], [], min count BufferPool.maxIdle, rfl, Nat.min_le_left _ _, List.nodup_nil, .nil⟩

/-- Whatever an operation does, the invariant is kept. -/
theorem Sound.turn {count size : Nat} {after : Lending} (h : Sound count size lending)
    (hturn : Turn lending after) : Sound count size after := by
  have hkeep : ∀ {source : Nat} {buffer : Bytes},
      lending.loans[source]? = some (.returned buffer) →
      after.loans[source]? = some (.returned buffer) :=
    fun h => hturn.getElem? h nofun
  have hacquire := (available_acquire_le lending.pool).trans h.available_le
  cases hturn with
  | nothing => exact h
  | handedOut =>
    refine ⟨lending.pool.size_acquire.trans h.size_eq, hacquire, h.whole.append ?_,
      h.traced.acquire.mono hkeep⟩
    rintro buffer ⟨rfl⟩
    rw [Bytes.length_zeros, h.size_eq]
  | written bytes hheld =>
    refine ⟨h.size_eq, h.available_le, h.whole.set _ ?_, h.traced.mono hkeep⟩
    rintro buffer ⟨rfl⟩
    rw [length_overwrite, h.length_eq hheld]
  | @returned loan buffer hheld =>
    rw [held?_eq_some_iff] at hheld
    refine ⟨(lending.pool.size_release buffer).trans h.size_eq,
      available_release_le h.available_le buffer, h.whole.set _ nofun,
      h.traced.release loan ?_ ?_ hkeep⟩
    · -- the buffer was held until now
      intro other hback
      rw [hheld] at hback
      cases hback
    · exact List.getElem?_set_self (List.getElem?_eq_some_iff.mp hheld).1
  | detached hheld =>
    exact ⟨h.size_eq, h.available_le, h.whole.set _ nofun, h.traced.mono hkeep⟩
  | borrowed left =>
    refine ⟨(lending.pool.acquire.2.size_release left).trans
        (lending.pool.size_acquire.trans h.size_eq), available_release_le hacquire left,
      h.whole.append nofun, h.traced.acquire.release lending.loans.length ?_ ?_ hkeep⟩
    · -- and this one was not handed out before
      intro other hback
      rw [List.getElem?_eq_none (Nat.le_refl _)] at hback
      cases hback
    · exact List.getElem?_concat_length

/-- **The invariant holds after every run.** -/
theorem Sound.run {count size : Nat} (h : Sound count size lending) (book : Code.Book)
    (ops : List Op) : Sound count size (lending.run book ops) := by
  induction ops generalizing lending with
  | nil => exact h
  | cons op rest ih => exact ih (h.turn (turn_step book op))

/-! ### The main statement -/

/-- **Recycled buffers carry nothing over.** Take a pool that was made with any number of buffers of
any size above zero, and let any operations be carried out with it, datagrams of any sessions
included. Then

* the next buffer that is handed out is all zeros;
* at most 1024 buffers are idle;
* giving a buffer back puts it in front of the idle ones, unless there are 1024 already;
* taking a buffer away leaves the pool as it is, and whatever follows, the buffer stays taken away:
  as every idle buffer is one that was returned or was there from the beginning, it is none of them;
* what comes of a datagram, and the session afterwards, are what they are with a new pool: for a
  given session nothing that was received before makes a difference. -/
theorem nothing_carried_over (book : Code.Book) (count : Nat) {size : Nat} (hsize : 0 < size)
    (ops : List Op) :
    let lending := (start count size).run book ops
    (lending.step book .acquire).loans = lending.loans ++ [.held (Bytes.zeros size)] ∧
      lending.pool.available ≤ BufferPool.maxIdle ∧
      (∀ loan buffer, lending.held? loan = some buffer →
        (lending.step book (.drop loan)).pool.idle =
          if lending.pool.available < BufferPool.maxIdle then buffer :: lending.pool.idle
          else lending.pool.idle) ∧
      (∀ loan buffer, lending.held? loan = some buffer →
        (lending.step book (.detach loan)).pool = lending.pool ∧
          ∀ more, ((lending.step book (.detach loan)).run book more).loans[loan]? =
            some (.detached buffer)) ∧
      Traced count lending.pool lending.loans ∧
      ∀ (session : Session) (now : Instant) (datagram : Bytes),
        (session.receive book lending.pool now datagram).1 =
            (session.receive book (.make count size) now datagram).1 ∧
          (session.receive book lending.pool now datagram).2.1 =
            (session.receive book (.make count size) now datagram).2.1 := by
  intro lending
  have hsound : Sound count size lending := (sound_start count size).run book ops
  refine ⟨?_, hsound.available_le, ?_, ?_, hsound.traced, ?_⟩
  · rw [step_acquire, hsound.size_eq]
  · intro loan buffer hheld
    have hne : buffer ≠ [] := by
      rintro rfl
      exact absurd (hsound.length_eq hheld) hsize.ne
    rw [step_drop book hheld, lending.pool.release_of_ne_nil hne]
    split <;> rfl
  · intro loan buffer hheld
    rw [step_detach book hheld]
    refine ⟨rfl, fun more => getElem?_run book more ?_ nofun⟩
    exact List.getElem?_set_self (List.getElem?_eq_some_iff.mp (held?_eq_some_iff.mp hheld)).1
  · intro session now datagram
    exact session.receive_congr book now datagram hsound.size_eq

/-- Of three holders the first writes and gives its buffer back, the second writes and takes its
buffer away, the third does nothing yet. A datagram is received with what the first left. -/
theorem nothing_carried_over_used : ∃ book datagram receipt,
    Code.Lengths.standard.book = .ok book ∧ 0 < 8 ∧
      let lending := (start 1 8).run book [.acquire, .acquire, .acquire, .write 0 [1, 2, 3],
        .write 1 [9], .detach 1, .drop 0]
      lending.pool.idle = [[1, 2, 3, 0, 0, 0, 0, 0]] ∧
        lending.loans[1]? = some (.detached [9, 0, 0, 0, 0, 0, 0, 0]) ∧
        lending.held? 2 = some (Bytes.zeros 8) ∧
        (lending.step book .acquire).held? 3 = some (Bytes.zeros 8) ∧
        (lending.step book (.drop 2)).pool.idle = [Bytes.zeros 8, [1, 2, 3, 0, 0, 0, 0, 0]] ∧
        ((lending.step book (.detach 2)).run book [.drop 2, .acquire]).loans[2]? =
          some (.detached (Bytes.zeros 8)) ∧
        ((Session.start (.v4 127 0 0 1 5000) 7 (.ofText "secret") 0).receive book lending.pool 5
          datagram).1 = .ok receipt ∧
        receipt.packets = [⟨0x15, 1, []⟩] := by
  obtain ⟨book, hbook, -⟩ := Code.Lengths.standard.exists_book
  let session := Session.start (.v4 127 0 0 1 5000) 7 (.ofText "secret") 0
  -- the frame of an empty sub-packet and a zero byte fit into eight bytes
  obtain ⟨clear, pool', -, hreceive⟩ := Session.exists_receive_of_room hbook session (.make 1 8) 5
    ⟨1, 0, 0⟩ [⟨0x15, 1, []⟩] (by decide) (by decide) (by decide)
  obtain ⟨hacquire, -, hdrop, hdetach, -, hsame⟩ :=
    nothing_carried_over book 1 (by decide : 0 < 8) [.acquire, .acquire, .acquire,
      .write 0 [1, 2, 3], .write 1 [9], .detach 1, .drop 0]
  refine ⟨book, _, _, hbook, by decide, rfl, rfl, rfl, ?_, ?_, (hdetach 2 _ rfl).2 _,
    (hsame session 5 _).1.trans (congrArg Prod.fst hreceive), by decide⟩
  · rw [held?, hacquire]
    rfl
  · rw [hdrop 2 _ rfl]
    rfl

end Lending

end ZoneRelay
