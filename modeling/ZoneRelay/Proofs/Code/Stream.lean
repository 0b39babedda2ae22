import Mathlib.Algebra.Order.Ring.Nat
import ZoneRelay.Code.Book

/-!
# Streams and the bits they carry

A stream is written code by code into a buffer and read bit by bit along a trie. This file
ties both to one string of bits, the codes of the bytes one after another
(`ZoneRelay.Code.Encoder.encode`), and concludes that reading undoes writing.

The encoder and the trie of a book are loaded from two tables that need not have anything to
do with each other. **A book is faithful** (`ZoneRelay.Code.Book.Faithful`) when they fit:
every byte's code is not empty and leads from the root, through branches only, to a leaf
with that byte (`ZoneRelay.Code.Trie.Leads`).

| step | what it does to the bits | theorem |
|---|---|---|
| writing | the codes, if they end before the room does | `Encoder.write_eq` |
| the room | no more bits for a byte than the longest code has | `Encoder.length_encode_le` |
| the buffer | the bits in front, the old ones behind | `Bits.ofBytes_overwrite` |
| the checks in front | the bits behind the first eight | `Opens.dataBits_eq` |
| taking the stream | the bits again, whatever the buffer held | `dataBits_take_overwrite` |
| walking the trie | the bytes, up to the room for them | `Book.Faithful.walk_encode` |
-/

namespace ZoneRelay

/-! ### Bits in a buffer -/

namespace Bits

/-- One bit shifted to a place in a byte is there and nowhere else. -/
theorem testBit_shiftLeft (bit : Bool) (place i : Fin 8) :
    (bit.toUInt8 <<< place.val.toUInt8).toNat.testBit i = (decide (i = place) && bit) := by
  revert bit place i
  decide

/-- Setting one bit of a byte leaves the others. -/
theorem testBit_setBit (slot : UInt8) (bit : Bool) (place i : Fin 8) :
    (setBit slot place bit).toNat.testBit i = if i = place then bit else slot.toNat.testBit i := by
  have hmask : (~~~((1 : UInt8) <<< place.val.toUInt8)).toNat.testBit i = !decide (i = place) := by
    have hone := testBit_shiftLeft true place i
    rw [Bool.and_true] at hone
    rw [← UInt8.toNat_toBitVec, BitVec.testBit_toNat, UInt8.toBitVec_not, BitVec.getLsbD_not,
      ← BitVec.testBit_toNat, UInt8.toNat_toBitVec, decide_eq_true i.isLt, Bool.true_and]
    exact congrArg not hone
  rw [setBit, UInt8.toNat_or, Nat.testBit_or, UInt8.toNat_and, Nat.testBit_and, hmask,
    testBit_shiftLeft]
  by_cases h : i = place
  · rw [if_pos h, decide_eq_true h, Bool.not_true, Bool.and_false, Bool.false_or, Bool.true_and]
  · rw [if_neg h, decide_eq_false h, Bool.not_false, Bool.and_true, Bool.false_and, Bool.or_false]

/-- The bits of a byte with one of them set. -/
theorem ofByte_setBit (slot : UInt8) {place : Nat} (h : place < 8) (bit : Bool) :
    ofByte (setBit slot place bit) = (ofByte slot).set place bit := by
  refine List.ext_getElem (by simp) fun i hi _ => ?_
  rw [length_ofByte] at hi
  have hbit := testBit_setBit slot bit ⟨place, h⟩ ⟨i, hi⟩
  rw [List.getElem_set]
  simpa only [ofByte, ofNat, List.getElem_map, List.getElem_range, Fin.mk.injEq,
    @eq_comm _ i place] using hbit

/-- **The bits of a buffer with one of them set.** -/
theorem ofBytes_modify (buffer : Bytes) (position : Nat) (bit : Bool) :
    ofBytes (buffer.modify (position / 8) fun slot => setBit slot (position % 8) bit) =
      (ofBytes buffer).set position bit := by
  induction buffer generalizing position with
  | nil => simp
  | cons slot rest ih =>
    rcases Nat.lt_or_ge position 8 with hfirst | hlater
    · rw [Nat.div_eq_of_lt hfirst, Nat.mod_eq_of_lt hfirst, List.modify_zero_cons, ofBytes_cons,
        ofBytes_cons, ofByte_setBit slot hfirst, List.set_append_left _ _ (by simpa using hfirst)]
    · obtain ⟨position, rfl⟩ := Nat.exists_eq_add_of_le' hlater
      rw [Nat.add_div_right _ (by decide), Nat.add_mod_right,
        List.modify_succ_cons, ofBytes_cons, ofBytes_cons, ih,
        List.set_append_right _ _ (by simp), length_ofByte, Nat.add_sub_cancel]

/-- Storing bits where there is room for them changes those bits and no others. -/
theorem ofBytes_store (bits : Bits) {position : Nat} {buffer : Array UInt8}
    (h : position + bits.length ≤ 8 * buffer.toList.length) :
    ofBytes (store position bits buffer).toList =
      (ofBytes buffer.toList).take position ++ bits ++
        (ofBytes buffer.toList).drop (position + bits.length) := by
  induction bits generalizing position buffer with
  | nil => rw [store, List.append_nil, List.length_nil, Nat.add_zero, List.take_append_drop]
  | cons bit rest ih =>
    rw [List.length_cons] at h
    have hset := ofBytes_modify buffer.toList position bit
    rw [← Array.toList_modify] at hset
    have hlast : position < (ofBytes buffer.toList).length := by
      rw [length_ofBytes]
      omega
    have hfront : ((ofBytes buffer.toList).set position bit).take (position + 1) =
        (ofBytes buffer.toList).take position ++ [bit] := by
      rw [List.take_add_one, List.take_set_of_le (Nat.le_refl _), List.getElem?_set_self hlast]
      rfl
    have hback : ((ofBytes buffer.toList).set position bit).drop (position + 1 + rest.length) =
        (ofBytes buffer.toList).drop (position + (rest.length + 1)) := by
      rw [List.drop_set_of_lt (by omega), Nat.add_right_comm, Nat.add_assoc]
    rw [store, ih (by rw [Array.toList_modify, List.length_modify]; omega), hset, hfront, hback,
      List.append_assoc _ [bit], List.length_cons]
    rfl

/-- **Writing at most as many bits as the buffer has**: the bits, and behind them the old
ones. -/
theorem ofBytes_overwrite {buffer : Bytes} {bits : Bits} (h : bits.length ≤ 8 * buffer.length) :
    ofBytes (overwrite buffer bits) = bits ++ (ofBytes buffer).drop bits.length := by
  rw [overwrite, ofBytes_store bits (by rwa [Nat.zero_add]), List.take_zero, List.nil_append,
    Nat.zero_add]

theorem length_overwrite {buffer : Bytes} {bits : Bits} (h : bits.length ≤ 8 * buffer.length) :
    (overwrite buffer bits).length = buffer.length := by
  have hbits := congrArg List.length (ofBytes_overwrite h)
  rw [length_ofBytes, List.length_append, List.length_drop, length_ofBytes] at hbits
  omega

/-- The bits of the first bytes are the first bits. -/
theorem ofBytes_take (data : Bytes) (n : Nat) :
    ofBytes (data.take n) = (ofBytes data).take (8 * n) := by
  induction data generalizing n with
  | nil => simp
  | cons b rest ih =>
    cases n with
    | zero => simp
    | succ n =>
      have hlen : 8 * (n + 1) = (ofByte b).length + 8 * n := by rw [length_ofByte]; omega
      rw [List.take_succ_cons, ofBytes_cons, ofBytes_cons, hlen, List.take_length_add_append, ih]

end Bits

namespace Code

/-! ### Writing -/

/-- The codes of a byte string, one after another. -/
def Encoder.encode (encoder : Encoder) (input : Bytes) : Bits :=
  input.flatMap fun b => (encoder.entry b).word

@[simp] theorem Encoder.encode_nil (encoder : Encoder) : encoder.encode [] = [] := rfl

@[simp] theorem Encoder.encode_cons (encoder : Encoder) (b : UInt8) (rest : Bytes) :
    encoder.encode (b :: rest) = (encoder.entry b).word ++ encoder.encode rest := by
  simp [encode]

/-- **Writing what fits**: if the last code ends before the room does, everything is
written. -/
theorem Encoder.write_eq {encoder : Encoder} {room used : Nat} {input : Bytes}
    (h : used + (encoder.encode input).length < room) :
    encoder.write room used input = ⟨encoder.encode input, none⟩ := by
  induction input generalizing used with
  | nil => rfl
  | cons b rest ih =>
    rw [encode_cons, List.length_append] at h
    rw [write, if_neg (by omega), ih (by omega), encode_cons]

/-- **Only what fits is written**: where nothing overflows the codes end before the room
does, or there are none. -/
theorem Encoder.write_overflow_none {encoder : Encoder} {room used : Nat} {input : Bytes}
    (h : (encoder.write room used input).overflow = none) :
    (encoder.write room used input).bits = encoder.encode input ∧
      (input = [] ∨ used + (encoder.encode input).length < room) := by
  induction input generalizing used with
  | nil => exact ⟨rfl, Or.inl rfl⟩
  | cons b rest ih =>
    rw [write] at h ⊢
    by_cases hfull : room ≤ used + (encoder.entry b).word.length
    · rw [if_pos hfull] at h
      cases h
    · rw [if_neg hfull] at h ⊢
      obtain ⟨hbits, hrest⟩ := ih h
      refine ⟨by simp only [hbits, encode_cons], Or.inr ?_⟩
      rw [encode_cons, List.length_append]
      rcases hrest with rfl | hlt
      · rw [encode_nil, List.length_nil]
        omega
      · omega

/-- **What a buffer holds after compressing into it**, and that the codes fit into it. -/
theorem Book.compress_eq_ok {book : Book} {input buffer stream : Bytes} {bitCount : UInt32}
    (h : book.compress input buffer = (.ok bitCount, stream)) :
    ∃ first body, buffer = first :: body ∧
      (book.encoder.encode input).length ≤ 8 * body.length ∧
      bitCount = (book.encoder.encode input).length.toUInt32 + 8 ∧
      stream = 1 :: Bits.overwrite body (book.encoder.encode input) := by
  cases buffer with
  | nil => cases h
  | cons first body =>
    rw [compress] at h
    rcases hover : (book.encoder.write (8 * body.length) 0 input).overflow with _ | needed
    · obtain ⟨hbits, hfit⟩ := Encoder.write_overflow_none hover
      simp only [hover, hbits, Prod.mk.injEq, Except.ok.injEq] at h
      refine ⟨first, body, rfl, ?_, h.1.symm, h.2.symm⟩
      rcases hfit with rfl | hlt
      · exact Nat.zero_le _
      · omega
    · simp only [hover] at h
      cases h

/-- Compressing fails for want of room and for nothing else. -/
theorem Book.compress_cases (book : Book) (input buffer : Bytes) :
    (∃ needed available stream,
      book.compress input buffer = (.error (.capacityExceeded needed available), stream)) ∨
    ∃ bitCount stream, book.compress input buffer = (.ok bitCount, stream) := by
  cases buffer with
  | nil => exact Or.inl ⟨8, 0, [], rfl⟩
  | cons first body =>
    rcases hover : (book.encoder.write (8 * body.length) 0 input).overflow with _ | needed
    · exact Or.inr ⟨_, _, by simp only [compress, hover]; rfl⟩
    · exact Or.inl ⟨needed, _, _, by simp only [compress, hover]; rfl⟩

/-- **Compressing into a buffer with room for it succeeds.** -/
theorem Book.compress_eq_of_lt {book : Book} {input body : Bytes} (first : UInt8)
    (h : (book.encoder.encode input).length < 8 * body.length) :
    book.compress input (first :: body) =
      (.ok ((book.encoder.encode input).length.toUInt32 + 8),
        1 :: Bits.overwrite body (book.encoder.encode input)) := by
  have hwrite : book.encoder.write (8 * body.length) 0 input =
      ⟨book.encoder.encode input, none⟩ := Encoder.write_eq (by rwa [Nat.zero_add])
  simp only [compress, hwrite]

/-! ### The room a byte string takes -/

/-- Codes of at most `n` bits take at most `n` bits for each byte. -/
theorem Encoder.length_encode_le {encoder : Encoder} {n : Nat}
    (h : ∀ b, (encoder.entry b).bits ≤ n) (input : Bytes) :
    (encoder.encode input).length ≤ input.length * n := by
  induction input with
  | nil => exact Nat.zero_le _
  | cons b rest ih =>
    rw [encode_cons, List.length_append, Entry.length_word, List.length_cons, Nat.succ_mul]
    have hb := h b
    omega

theorem Encoder.bits_le_longest (encoder : Encoder) (b : UInt8) :
    (encoder.entry b).bits ≤ encoder.longest := by
  -- the maximum so far has to be generalized: it bounds what is behind as well
  have hfold : ∀ (sizes : List Nat) (n : Nat), n ≤ sizes.foldl max n ∧
      ∀ size ∈ sizes, size ≤ sizes.foldl max n := by
    intro sizes
    induction sizes with
    | nil => exact fun n => ⟨Nat.le_refl _, nofun⟩
    | cons size rest ih =>
      intro n
      obtain ⟨hstart, hrest⟩ := ih (max n size)
      rw [List.foldl_cons]
      refine ⟨Nat.le_trans (Nat.le_max_left _ _) hstart, fun other hmem => ?_⟩
      rcases List.mem_cons.mp hmem with rfl | hmem
      · exact Nat.le_trans (Nat.le_max_right _ _) hstart
      · exact hrest other hmem
  exact (hfold _ 0).2 _ (List.mem_map.mpr ⟨b, mem_allBytes b, rfl⟩)

/-- **A byte string always compresses into a buffer of the size it may need at most.** -/
theorem Book.compressed_eq (book : Book) (input : Bytes) :
    ∃ bitCount stream,
      book.compress input (Bytes.zeros (book.maxCompressedLength input.length)) =
        (.ok bitCount, stream) ∧
      book.compressed input = .ok (bitCount, stream.take (Bits.byteCount bitCount.toNat)) := by
  have hroom : (book.encoder.encode input).length <
      8 * (Bytes.zeros (Bits.byteCount (input.length * book.encoder.longest) + 1)).length := by
    have hlen := Encoder.length_encode_le book.encoder.bits_le_longest input
    rw [Bytes.length_zeros, Bits.byteCount]
    omega
  have hzeros : Bytes.zeros (book.maxCompressedLength input.length) =
      0 :: Bytes.zeros (Bits.byteCount (input.length * book.encoder.longest) + 1) := by
    rw [maxCompressedLength, Nat.add_assoc, Nat.add_comm 1]
    rfl
  have hwrite := compress_eq_of_lt 0 hroom
  rw [← hzeros] at hwrite
  exact ⟨_, _, hwrite, by rw [compressed, hwrite]⟩

/-! ### The checks in front -/

/-- Some bytes hold a number of bits when there are as many bits in them. -/
theorem byteCount_le_iff {n size : Nat} : Bits.byteCount n ≤ size ↔ n ≤ 8 * size := by
  rw [Bits.byteCount]
  omega

/-- The first byte is `1` when the first eight bits are those of `1`. -/
theorem head?_eq_one_iff {input : Bytes} :
    input.head? = some 1 ↔ (Bits.ofBytes input).take 8 = Bits.ofByte 1 := by
  rcases input with _ | ⟨first, data⟩
  · constructor
    · intro h
      cases h
    · intro h
      exact absurd (congrArg List.length h) (by decide)
  · rw [Bits.ofBytes_cons, List.take_left' (Bits.length_ofByte first), List.head?_cons,
      Option.some.injEq]
    constructor
    · exact congrArg Bits.ofByte
    · exact Bits.ofByte_inj

/-- **The form of a stream**: the byte `1`, a bit count that includes it, and as many bytes as the
bit count asks for. -/
structure Opens (input : Bytes) (bitCount : UInt32) : Prop where
  header : input.head? = some 1
  count : 8 ≤ bitCount
  long : Bits.byteCount bitCount.toNat ≤ input.length

/-- A stream of the right form has its data bits. -/
theorem Opens.dataBits_eq {input : Bytes} {bitCount : UInt32} (h : Opens input bitCount) :
    dataBits input bitCount = .ok (((Bits.ofBytes input).take bitCount.toNat).drop 8) := by
  obtain ⟨hheader, hcount, hlong⟩ := h
  rcases input with _ | ⟨first, data⟩
  · cases hheader
  · obtain rfl := Option.some.inj hheader
    rw [List.length_cons] at hlong
    rw [dataBits, if_neg (UInt32.not_lt.mpr hcount), if_neg (Nat.not_lt.mpr hlong),
      if_neg (fun hne => hne rfl), Bits.ofBytes_cons, List.drop_take,
      List.drop_left' (Bits.length_ofByte 1)]

/-- The data bits are those that the bit count asks for, without the first eight. -/
theorem Opens.length_bits {input : Bytes} {bitCount : UInt32} (h : Opens input bitCount) :
    (((Bits.ofBytes input).take bitCount.toNat).drop 8).length = bitCount.toNat - 8 := by
  have hlong := byteCount_le_iff.mp h.long
  rw [List.length_drop, List.length_take, Bits.length_ofBytes, Nat.min_eq_left hlong]

/-- **What has not this form is refused**: its first byte is wrong, or it is corrupt, whatever
the trie. -/
theorem dataBits_error {input : Bytes} {bitCount : UInt32} (h : ¬ Opens input bitCount) :
    dataBits input bitCount = .error .invalidHeader ∨
      ∃ cause, dataBits input bitCount = .error (.corruptStream cause) ∧
        ∀ id, cause ≠ .outsideTrie id := by
  rcases input with _ | ⟨first, data⟩
  · exact Or.inr ⟨_, rfl, nofun⟩
  · rw [dataBits]
    by_cases hcount : bitCount < 8
    · exact Or.inr ⟨_, if_pos hcount, nofun⟩
    · rw [if_neg hcount]
      by_cases hlong : data.length + 1 < Bits.byteCount bitCount.toNat
      · exact Or.inr ⟨_, if_pos hlong, nofun⟩
      · rw [if_neg hlong]
        -- all that can be wrong now is the first byte
        refine Or.inl (if_pos fun hfirst => h ⟨?_, UInt32.not_lt.mp hcount, Nat.not_lt.mp hlong⟩)
        rw [hfirst, List.head?_cons]

/-- What has data bits has the form of a stream. -/
theorem opens_of_dataBits {input : Bytes} {bitCount : UInt32} {bits : Bits}
    (h : dataBits input bitCount = .ok bits) : Opens input bitCount := by
  by_contra hform
  rcases dataBits_error hform with herror | ⟨cause, herror, -⟩
  · cases h.symm.trans herror
  · cases h.symm.trans herror

/-! ### Taking the stream -/

/-- A bit count that does not overflow. -/
theorem toNat_bitCount {n : Nat} (h : n + 8 < 2 ^ 32) : (n.toUInt32 + 8).toNat = n + 8 := by
  have hsmall : n.toUInt32.toNat = n := by simp [Nat.mod_eq_of_lt (by omega : n < 4294967296)]
  rw [UInt32.toNat_add, hsmall]
  exact Nat.mod_eq_of_lt h

/-- The stream that is taken has as many bytes as its bit count asks for. -/
theorem Book.length_take_compress {book : Book} {input buffer stream : Bytes} {bitCount : UInt32}
    (hsmall : (book.encoder.encode input).length + 8 < 2 ^ 32)
    (hwrite : book.compress input buffer = (.ok bitCount, stream)) :
    (stream.take (Bits.byteCount bitCount.toNat)).length = Bits.byteCount bitCount.toNat := by
  obtain ⟨first, body, -, hfit, rfl, rfl⟩ := book.compress_eq_ok hwrite
  rw [List.length_take, List.length_cons, Bits.length_overwrite hfit, toNat_bitCount hsmall,
    Bits.byteCount]
  omega

/-- The bytes of a stream up to its bit count carry the bits that were written, whatever was
in the buffer before. -/
theorem dataBits_take_overwrite {body : Bytes} {bits : Bits} (hfit : bits.length ≤ 8 * body.length)
    (hsmall : bits.length + 8 < 2 ^ 32) :
    dataBits ((1 :: Bits.overwrite body bits).take
      (Bits.byteCount (bits.length.toUInt32 + 8).toNat)) (bits.length.toUInt32 + 8) =
      .ok bits := by
  have hcount := toNat_bitCount hsmall
  have hbytes : Bits.byteCount (bits.length + 8) = (bits.length + 7) / 8 + 1 := by
    rw [Bits.byteCount]
    omega
  -- without the bound the bit count could have wrapped around to less than eight
  have hlt : ¬ bits.length.toUInt32 + 8 < 8 := by
    rw [UInt32.lt_iff_toNat_lt, hcount]
    show ¬ bits.length + 8 < 8
    omega
  have hlen : ((Bits.overwrite body bits).take ((bits.length + 7) / 8)).length =
      (bits.length + 7) / 8 := by
    rw [List.length_take, Bits.length_overwrite hfit]
    omega
  rw [hcount, hbytes, List.take_succ_cons, dataBits, hcount, hbytes, hlen]
  simp only [if_neg hlt, Nat.lt_irrefl, if_false, ne_eq, not_true_eq_false, Except.ok.injEq]
  rw [Bits.ofBytes_take, Bits.ofBytes_overwrite hfit, List.take_take, Nat.min_eq_left (by omega),
    Nat.add_sub_cancel, List.take_left]

/-! ### Walking the trie -/

/-- **A bit string leads from a node to a byte**: bit after bit to a child, through branches
only, and at its end to a leaf with that byte. -/
def Trie.Leads (trie : Trie) : (node : Nat) → Bits → UInt8 → Prop
  | node, [], byte => trie.node? node = some (.leaf byte)
  | node, bit :: rest, byte =>
    ∃ child, trie.child? node bit = some child ∧ trie.Leads child rest byte

/-- A node that bits lead on from is a branch. -/
theorem Trie.exists_branch {trie : Trie} {node child : Nat} {bit : Bool}
    (h : trie.child? node bit = some child) :
    ∃ left right, trie.node? node = some (.branch left right) := by
  rw [child?] at h
  split at h
  · exact ⟨_, _, ‹_›⟩
  · cases h

/-- **Walking along a code** gives its byte and starts over behind it. -/
theorem Trie.Leads.walk {trie : Trie} {node : Nat} {word : Bits} {byte : UInt8}
    (h : trie.Leads node word byte) (hne : word ≠ []) (room i : Nat) (more : Bits) :
    trie.walk (room + 1) node i (word ++ more) =
      ⟨byte :: (trie.walk room 0 (i + word.length) more).bytes,
        (trie.walk room 0 (i + word.length) more).stuck⟩ := by
  induction word generalizing node i with
  | nil => exact absurd rfl hne
  | cons bit rest ih =>
    obtain ⟨child, hchild, hlead⟩ := h
    rw [List.cons_append, Trie.walk, List.length_cons]
    simp only [hchild]
    cases rest with
    | nil =>
      -- the last bit comes to the leaf, and the walk starts over at the root
      simp only [show trie.node? child = some (.leaf byte) from hlead, List.nil_append,
        List.length_nil]
    | cons next rest =>
      obtain ⟨grandchild, hgrand, -⟩ := id hlead
      obtain ⟨left, right, hnode⟩ := exists_branch hgrand
      simp only [hnode]
      rw [ih hlead (List.cons_ne_nil _ _), List.length_cons]
      simp only [Nat.add_assoc, Nat.add_comm 1]

/-! ### Faithful books -/

/-- **Encoder and trie fit**: every byte has a code that is not empty and that leads from the
root to a leaf with this byte. -/
def Book.Faithful (book : Book) : Prop :=
  ∀ b : UInt8, (book.encoder.entry b).word ≠ [] ∧
    book.trie.Leads 0 (book.encoder.entry b).word b

/-- Walking along the codes of a byte string gives the byte string, or as much of it as
there is room for. -/
theorem Book.Faithful.walk_encode {book : Book} (h : book.Faithful) (room i : Nat)
    (input : Bytes) :
    book.trie.walk room 0 i (book.encoder.encode input) = ⟨input.take room, none⟩ := by
  induction input generalizing room i with
  | nil =>
    rw [Encoder.encode_nil, List.take_nil]
    cases room <;> rfl
  | cons b rest ih =>
    cases room with
    | zero => rw [Trie.walk, List.take_zero]
    | succ room =>
      obtain ⟨hne, hlead⟩ := h b
      rw [Encoder.encode_cons, hlead.walk hne, ih, List.take_succ_cons]

/-- **Reading undoes writing**: the stream taken from the buffer it was written into gives
back the bytes written, as many of them as the output has room for, and leaves the rest of
the output alone. -/
theorem Book.Faithful.decompress_compress {book : Book} (h : book.Faithful)
    {input buffer stream : Bytes} {bitCount : UInt32}
    (hsmall : (book.encoder.encode input).length + 8 < 2 ^ 32)
    (hwrite : book.compress input buffer = (.ok bitCount, stream)) (output : Bytes) :
    book.decompress (stream.take (Bits.byteCount bitCount.toNat)) bitCount output =
      (.ok (min output.length input.length),
        input.take output.length ++ output.drop (min output.length input.length)) := by
  obtain ⟨first, body, -, hfit, rfl, rfl⟩ := book.compress_eq_ok hwrite
  rw [Book.decompress, dataBits_take_overwrite hfit hsmall]
  simp only [h.walk_encode, List.length_take]

/-- With room for all of it, the bytes written stand in front of the rest of the output. -/
theorem Book.Faithful.decompress_all {book : Book} (h : book.Faithful)
    {input buffer stream output : Bytes} {bitCount : UInt32}
    (hsmall : (book.encoder.encode input).length + 8 < 2 ^ 32)
    (hwrite : book.compress input buffer = (.ok bitCount, stream))
    (hroom : input.length ≤ output.length) :
    book.decompress (stream.take (Bits.byteCount bitCount.toNat)) bitCount output =
      (.ok input.length, input ++ output.drop input.length) := by
  rw [h.decompress_compress hsmall hwrite, Nat.min_eq_right hroom, List.take_of_length_le hroom]

end Code

end ZoneRelay
