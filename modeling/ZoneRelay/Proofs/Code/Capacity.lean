import ZoneRelay.Proofs.Code.Reading

/-!
# What fits into a buffer

Compressing writes code after code into the body of a buffer, behind its first byte, and stops at
the first code that would reach the end of it. **What fits** is said by the codes alone
(`ZoneRelay.Code.Encoder.Fits`): a byte string without codes fits, and any other one whose codes
together have fewer bits than the body.

As no code has fewer than zero bits, what fits is a beginning of the input, and everything shorter
fits as well; so there is a longest one. **Compressing writes exactly its codes**
(`ZoneRelay.Code.compress_fitting`): all of the input and the first byte, or, if the input does not
fit, its longest beginning that does, and no other bit of the buffer.

| | theorem |
|---|---|
| what is written where nothing overflows | `ZoneRelay.Code.Encoder.write_overflow_none` |
| what is written where something does | `ZoneRelay.Code.Encoder.write_overflow_some` |
| it is the longest beginning that fits | `ZoneRelay.Code.Encoder.Fits.prefix_of_overflow` |
| the buffer afterwards | `ZoneRelay.Bits.ofBytes_overwrite` |
-/

namespace ZoneRelay

namespace Code

namespace Encoder

variable {encoder : Encoder} {room : Nat}

@[simp] theorem encode_append (encoder : Encoder) (x y : Bytes) :
    encoder.encode (x ++ y) = encoder.encode x ++ encoder.encode y := by
  rw [encode, List.flatMap_append]
  rfl

/-- A beginning has no more bits than the whole. -/
theorem length_encode_le_of_prefix {x y : Bytes} (h : x <+: y) :
    (encoder.encode x).length ≤ (encoder.encode y).length := by
  obtain ⟨rest, rfl⟩ := h
  rw [encode_append, List.length_append]
  exact Nat.le_add_right _ _

/-- **A byte string fits** into some room: it is empty, or its codes leave at least one bit. -/
def Fits (encoder : Encoder) (room : Nat) (input : Bytes) : Prop :=
  input = [] ∨ (encoder.encode input).length < room

/-- What fits goes no further than to the first byte whose code would reach the end. -/
theorem Fits.prefix_of_overflow {input front other : Bytes} {next : UInt8}
    (h : encoder.Fits room other) (hother : other <+: input) (hfront : front ++ [next] <+: input)
    (hfull : room ≤ (encoder.encode (front ++ [next])).length) : other <+: front := by
  have hno : ¬ front ++ [next] <+: other := by
    intro hlonger
    have hle : (encoder.encode (front ++ [next])).length ≤ (encoder.encode other).length :=
      length_encode_le_of_prefix hlonger
    rcases h with rfl | hlt
    · exact absurd (List.prefix_nil.mp hlonger) (by simp)
    · omega
  rcases List.prefix_or_prefix_of_prefix hother hfront with hshort | hlong
  · rcases List.prefix_concat_iff.mp hshort with rfl | hbegin
    · exact absurd List.prefix_rfl hno
    · exact hbegin
  · exact absurd hlong hno

/-- **Where a code does not fit**, the codes of the bytes in front of it were written, and its end
is what is reported. -/
theorem write_overflow_some {used needed : Nat} {input : Bytes}
    (h : (encoder.write room used input).overflow = some needed) :
    ∃ front next rest, input = front ++ next :: rest ∧
      (encoder.write room used input).bits = encoder.encode front ∧
      (front = [] ∨ used + (encoder.encode front).length < room) ∧
      needed = used + (encoder.encode (front ++ [next])).length ∧ room ≤ needed := by
  induction input generalizing used with
  | nil => cases h
  | cons b rest ih =>
    rw [write] at h ⊢
    by_cases hfull : room ≤ used + (encoder.entry b).word.length
    · rw [if_pos hfull] at h ⊢
      obtain rfl := Option.some.inj h
      exact ⟨[], b, rest, rfl, rfl, Or.inl rfl, by simp, hfull⟩
    · rw [if_neg hfull] at h ⊢
      obtain ⟨front, next, more, rfl, hbits, hfits, hneeded, hle⟩ := ih h
      refine ⟨b :: front, next, more, rfl, by simp only [hbits, encode_cons], Or.inr ?_, ?_, hle⟩
      · rw [encode_cons, List.length_append]
        rcases hfits with rfl | hlt
        · rw [encode_nil, List.length_nil]
          omega
        · omega
      · rw [hneeded, List.cons_append, encode_cons, List.length_append, Nat.add_assoc]

end Encoder

namespace Book

/-- **The body of a buffer after some codes were written**: their bits, and behind them what was
there before. -/
structure Wrote (codes : Bits) (before after : Bytes) : Prop where
  length_eq : after.length = before.length
  bits_eq : Bits.ofBytes after = codes ++ (Bits.ofBytes before).drop codes.length

theorem wrote_overwrite {codes : Bits} {body : Bytes} (h : codes.length ≤ 8 * body.length) :
    Wrote codes body (Bits.overwrite body codes) :=
  ⟨Bits.length_overwrite h, Bits.ofBytes_overwrite h⟩

/-- What fits has no more bits than there is room for. -/
theorem length_le_of_fits {encoder : Encoder} {room : Nat} {input : Bytes}
    (h : encoder.Fits room input) : (encoder.encode input).length ≤ room := by
  rcases h with rfl | hlt
  · exact Nat.zero_le _
  · exact hlt.le

/-- Compressing what fits. -/
theorem compress_of_fits {book : Book} {input body : Bytes} (first : UInt8)
    (h : book.encoder.Fits (8 * body.length) input) :
    book.compress input (first :: body) =
      (.ok ((book.encoder.encode input).length.toUInt32 + 8),
        1 :: Bits.overwrite body (book.encoder.encode input)) := by
  rcases h with rfl | hlt
  · rfl
  · exact compress_eq_of_lt first hlt

/-- **Compressing what does not fit**: the codes of its longest beginning that fits are written,
the first byte stays, and the end of the next code is reported. -/
theorem compress_of_not_fits {book : Book} {input body : Bytes} (first : UInt8)
    (h : ¬ book.encoder.Fits (8 * body.length) input) :
    ∃ front next rest, input = front ++ next :: rest ∧
      book.encoder.Fits (8 * body.length) front ∧
      (∀ other, other <+: input → book.encoder.Fits (8 * body.length) other → other <+: front) ∧
      book.compress input (first :: body) =
        (.error (.capacityExceeded (book.encoder.encode (front ++ [next])).length
          (8 * body.length)), first :: Bits.overwrite body (book.encoder.encode front)) := by
  rcases hover : (book.encoder.write (8 * body.length) 0 input).overflow with _ | needed
  · obtain ⟨-, hfits⟩ := Encoder.write_overflow_none hover
    rw [Nat.zero_add] at hfits
    exact absurd hfits h
  · obtain ⟨front, next, rest, rfl, hbits, hfits, hneeded, hle⟩ :=
      Encoder.write_overflow_some hover
    rw [Nat.zero_add] at hfits hneeded
    subst hneeded
    refine ⟨front, next, rest, rfl, hfits, fun other hother hother' => ?_, ?_⟩
    · exact hother'.prefix_of_overflow hother ⟨rest, by simp⟩ hle
    · simp only [compress, hover, hbits]

end Book

/-- **Compressing writes what fits, and nothing else.** For any encoder, input and buffer:

* it succeeds if and only if there is a first byte and the input fits into the bytes behind it;
* if it succeeds, the first byte is `1`, the body has the codes of the input in front and is as it
  was behind them, and the bit count is that of the codes and the first byte, if it is a 32-bit
  number;
* if it fails although there is a first byte, this byte is as it was, the body has the codes of
  the longest beginning of the input that fits and is as it was behind them, and the fault tells
  the bits up to the end of the first code that did not fit;
* and with a buffer of its own it succeeds, if the bit count is a 32-bit number. -/
theorem compress_fitting (book : Book) (input : Bytes) :
    (∀ buffer : Bytes, (∃ bitCount stream, book.compress input buffer = (.ok bitCount, stream)) ↔
      buffer ≠ [] ∧ (input = [] ∨
        (book.encoder.encode input).length < 8 * (buffer.length - 1))) ∧
    (∀ (first : UInt8) (body stream : Bytes) (bitCount : UInt32),
      book.compress input (first :: body) = (.ok bitCount, stream) →
      (∃ body', stream = 1 :: body' ∧ Book.Wrote (book.encoder.encode input) body body') ∧
        ((book.encoder.encode input).length + 8 < 2 ^ 32 →
          bitCount.toNat = (book.encoder.encode input).length + 8)) ∧
    (∀ (first : UInt8) (body stream : Bytes) (fault : Fault),
      book.compress input (first :: body) = (.error fault, stream) →
      ∃ front next rest body', input = front ++ next :: rest ∧
        book.encoder.Fits (8 * body.length) front ∧
        (∀ other, other <+: input → book.encoder.Fits (8 * body.length) other →
          other <+: front) ∧
        fault = .capacityExceeded (book.encoder.encode (front ++ [next])).length
          (8 * body.length) ∧
        stream = first :: body' ∧ Book.Wrote (book.encoder.encode front) body body') ∧
    ((book.encoder.encode input).length + 8 < 2 ^ 32 →
      ∃ bitCount stream, book.compressed input = .ok (bitCount, stream) ∧
        bitCount.toNat = (book.encoder.encode input).length + 8 ∧
        stream.length = Bits.byteCount bitCount.toNat ∧
        (Bits.ofBytes stream).take bitCount.toNat =
          Bits.ofByte 1 ++ book.encoder.encode input) := by
  refine ⟨fun buffer => ?_, fun first body stream bitCount hwrite => ?_,
    fun first body stream fault hwrite => ?_, fun hsmall => ?_⟩
  · rcases buffer with _ | ⟨first, body⟩
    · exact ⟨nofun, fun h => absurd rfl h.1⟩
    · rw [List.length_cons, Nat.add_sub_cancel]
      refine ⟨?_, fun h => ⟨_, _, Book.compress_of_fits first h.2⟩⟩
      rintro ⟨bitCount, stream, hwrite⟩
      refine ⟨List.cons_ne_nil _ _, ?_⟩
      by_contra hfull
      obtain ⟨front, next, rest, -, -, -, hfail⟩ := Book.compress_of_not_fits first hfull
      cases hwrite.symm.trans hfail
  · obtain ⟨_, _, ⟨⟩, hroom, rfl, rfl⟩ := book.compress_eq_ok hwrite
    exact ⟨⟨_, rfl, Book.wrote_overwrite hroom⟩, toNat_bitCount⟩
  · by_cases hfits : book.encoder.Fits (8 * body.length) input
    · cases hwrite.symm.trans (Book.compress_of_fits first hfits)
    · obtain ⟨front, next, rest, hinput, hfront, hlongest, hfail⟩ :=
        Book.compress_of_not_fits first hfits
      obtain ⟨hfault, hstream⟩ := Prod.mk.inj (hwrite.symm.trans hfail)
      exact ⟨front, next, rest, _, hinput, hfront, hlongest, Except.error.inj hfault, hstream,
        Book.wrote_overwrite (Book.length_le_of_fits hfront)⟩
  · obtain ⟨bitCount, stream, hwrite, hlength, hbits, hcount⟩ := book.exists_compressed hsmall
    exact ⟨bitCount, stream, hwrite, hcount, hlength, hbits⟩

/-- With the standard lengths, two bytes of three and nine bits in a body of eight: the first of
them is written over the ones that were there, and the twelve bits of both are reported. -/
theorem compress_fitting_standard :
    let book : Book := ⟨Lengths.standard.encoder, ⟨#[]⟩⟩
    book.compress [0x20, 0x41] [0xFF, 0xFF] = (.error (.capacityExceeded 12 8), [0xFF, 0xFC]) ∧
      (∀ other, other <+: [0x20, 0x41] → book.encoder.Fits 8 other → other <+: [0x20]) ∧
      ∃ bitCount stream, book.compressed [0x20, 0x41] = .ok (bitCount, stream) ∧
        bitCount.toNat = 20 := by
  intro book
  have hentry : ∀ b, book.encoder.entry b = Lengths.standard.entry b :=
    Lengths.standard.entry_encoder
  have hwrite : book.compress [0x20, 0x41] [0xFF, 0xFF] =
      (.error (.capacityExceeded 12 8), [0xFF, 0xFC]) := by
    rw [Book.compress]
    simp only [Encoder.write, hentry]
    decide +kernel
  have hbits : (book.encoder.encode [0x20, 0x41]).length = 12 := by
    simp only [Encoder.encode_cons, Encoder.encode_nil, hentry]
    decide +kernel
  obtain ⟨-, -, hfail, hsucceed⟩ := compress_fitting book [0x20, 0x41]
  obtain ⟨front, next, rest, -, hinput, -, hlongest, hfault, -⟩ := hfail _ _ _ _ hwrite
  refine ⟨hwrite, ?_, ?_⟩
  · -- the fault tells twelve bits, so the second byte is the one that did not fit
    rcases front with _ | ⟨b, _ | ⟨c, front⟩⟩
    · obtain ⟨rfl, rfl⟩ := List.cons.inj hinput
      simp only [List.nil_append, Encoder.encode_cons, Encoder.encode_nil, hentry] at hfault
      exact absurd hfault (by decide +kernel)
    · obtain ⟨rfl, -⟩ := List.cons.inj hinput
      exact hlongest
    · exact absurd (congrArg List.length hinput) (by simp)
  · obtain ⟨bitCount, stream, hcompressed, hcount, -⟩ := hsucceed (by rw [hbits]; decide)
    exact ⟨bitCount, stream, hcompressed, by rw [hcount, hbits]⟩

end Code

end ZoneRelay
