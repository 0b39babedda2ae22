import ZoneRelay.Proofs.Code.Copy

/-!
# Reading into a buffer

Reading a stream fills a buffer and stops when it is full; a bit that no code continues with is a
fault, but only while there is room. This file takes the two apart. **What the bits say** is
independent of any buffer (`ZoneRelay.Code.Trie.Decodes`): they are codes that lead from the root
to leaves, one after another, and behind the last of them either some bits that end on the way to
a leaf, or some bits of which one has no child. **Reading into a buffer is this, cut at its end**
(`ZoneRelay.Code.decompress_cuts`).

| | theorem |
|---|---|
| bits say one thing, and only one | `Trie.Closed.exists_decodes`, `Trie.Decodes.unique` |
| walking with some room cuts it there | `Trie.Decodes.walk_eq` |
| no bit behind the bit count matters | `Opens.of_take` |

No assumption is made about the trie but that it was loaded: it may be cyclic, its codes may have
any length, and bits may lead to one byte in many ways.
-/

namespace ZoneRelay

namespace Code

namespace Trie

/-- **What bits say**, the first of them number `i`: the bytes of the codes they are made of, and
the number of the bit that has no child, if they do not just end. -/
inductive Decodes (trie : Trie) : (i : Nat) → Bits → Bytes → Option Nat → Prop
  /-- The bits end before a leaf. -/
  | done {i last : Nat} {bits : Bits} (hlast : trie.descend? 0 bits = some last)
      (hinner : bits ≠ [] → ∀ byte, trie.node? last ≠ some (.leaf byte)) :
      Decodes trie i bits [] none
  /-- Before a leaf there is a bit without a child. -/
  | missing {i last : Nat} {front more : Bits} {bit : Bool}
      (hlast : trie.descend? 0 front = some last)
      (hinner : front ≠ [] → ∀ byte, trie.node? last ≠ some (.leaf byte))
      (hchild : trie.child? last bit = none) :
      Decodes trie i (front ++ bit :: more) [] (some (i + front.length))
  /-- A code, and what the bits behind it say. -/
  | code {i : Nat} {word more : Bits} {byte : UInt8} {bytes : Bytes} {bit? : Option Nat}
      (hne : word ≠ []) (hlead : trie.Leads 0 word byte)
      (hmore : Decodes trie (i + word.length) more bytes bit?) :
      Decodes trie i (word ++ more) (byte :: bytes) bit?

variable {trie : Trie}

/-! ### Bits say one thing -/

/-- Bits that lead to a leaf are a code for its byte. -/
theorem leads_of_descend? {node last : Nat} {word : Bits} {byte : UInt8}
    (hlast : trie.descend? node word = some last) (hleaf : trie.node? last = some (.leaf byte)) :
    trie.Leads node word byte := by
  induction word generalizing node with
  | nil =>
    cases hlast
    exact hleaf
  | cons bit rest ih =>
    obtain ⟨child, hchild, hlast⟩ := Option.bind_eq_some_iff.mp hlast
    exact ⟨child, hchild, ih hlast⟩

/-- **Bits say something, whatever the trie.** The induction is on the bits still to follow; those
that were followed since the last code are kept beside the node they led to. -/
theorem Closed.exists_decodes_from (h : trie.Closed) {node : Nat} {path : Bits} (bits : Bits)
    (i : Nat) (hnode : trie.descend? 0 path = some node)
    (hinner : path ≠ [] → ∀ byte, trie.node? node ≠ some (.leaf byte)) :
    ∃ bytes bit?, trie.Decodes i (path ++ bits) bytes bit? := by
  induction bits generalizing node path i with
  | nil => exact ⟨[], none, .done (by rwa [List.append_nil]) (by rwa [List.append_nil])⟩
  | cons bit rest ih =>
    rcases hchild : trie.child? node bit with _ | child
    · exact ⟨[], _, .missing hnode hinner hchild⟩
    · have hpath : trie.descend? 0 (path ++ [bit]) = some child := by
        rw [descend?_append_singleton, hnode, Option.bind_some, hchild]
      have hbits : path ++ bit :: rest = (path ++ [bit]) ++ rest := by simp
      rw [hbits]
      obtain ⟨⟨left, right⟩ | byte, hkind⟩ := exists_node? (h node bit child hchild)
      · refine ih i hpath fun _ byte hleaf => ?_
        rw [hkind] at hleaf
        cases hleaf
      · -- a code is complete, and the walk starts over at the root
        have hroot : trie.descend? 0 [] = some 0 := rfl
        obtain ⟨bytes, bit?, hmore⟩ :=
          ih (i + (path ++ [bit]).length) hroot fun hne => absurd rfl hne
        exact ⟨_, _, .code (by simp) (leads_of_descend? hpath hkind) hmore⟩

theorem Closed.exists_decodes (h : trie.Closed) (i : Nat) (bits : Bits) :
    ∃ bytes bit?, trie.Decodes i bits bytes bit? := by
  have hroot : trie.descend? 0 [] = some 0 := rfl
  exact h.exists_decodes_from bits i hroot fun hne => absurd rfl hne

/-- Without room nothing is walked along. -/
theorem walk_zero (trie : Trie) (node i : Nat) (bits : Bits) :
    trie.walk 0 node i bits = ⟨[], none⟩ := by
  rw [walk]

/-- **A walk goes along bits that end before a leaf**, and goes on with those behind. -/
theorem Closed.walk_append (h : trie.Closed) {node last : Nat} {front : Bits}
    (hlast : trie.descend? node front = some last)
    (hinner : front ≠ [] → ∀ byte, trie.node? last ≠ some (.leaf byte)) (room i : Nat)
    (more : Bits) :
    trie.walk (room + 1) node i (front ++ more) =
      trie.walk (room + 1) last (i + front.length) more := by
  induction front generalizing node i with
  | nil =>
    cases hlast
    rfl
  | cons bit rest ih =>
    obtain ⟨child, hchild, hlast⟩ := Option.bind_eq_some_iff.mp hlast
    obtain ⟨left, right, hkind⟩ :
        ∃ left right, trie.node? child = some (.branch left right) := by
      rcases rest with _ | ⟨next, rest⟩
      · obtain rfl := Option.some.inj hlast
        obtain ⟨⟨left, right⟩ | byte, hkind⟩ := exists_node? (h node bit _ hchild)
        · exact ⟨left, right, hkind⟩
        · exact absurd hkind (hinner (List.cons_ne_nil _ _) byte)
      · obtain ⟨grandchild, hgrand, -⟩ := Option.bind_eq_some_iff.mp hlast
        exact exists_branch hgrand
    rw [List.cons_append, walk]
    simp only [hchild, hkind]
    rw [ih hlast (fun _ => hinner (List.cons_ne_nil _ _)), List.length_cons, Nat.add_assoc,
      Nat.add_comm 1]

/-- **Walking cuts what the bits say** at the room there is: if it is used up, a bit without a
child does not matter. -/
theorem Decodes.walk_eq (hclosed : trie.Closed) {i : Nat} {bits : Bits} {bytes : Bytes}
    {bit? : Option Nat} (h : trie.Decodes i bits bytes bit?) (room : Nat) :
    trie.walk room 0 i bits =
      ⟨bytes.take room, if room ≤ bytes.length then none else bit?.map .missingChild⟩ := by
  induction h generalizing room with
  | @done i last bits hlast hinner =>
    rcases room with _ | room
    · exact trie.walk_zero _ _ _
    · rw [← List.append_nil bits, hclosed.walk_append hlast hinner]
      rfl
  | missing hlast hinner hchild =>
    rcases room with _ | room
    · exact trie.walk_zero _ _ _
    · rw [hclosed.walk_append hlast hinner, walk]
      simp only [hchild]
      rfl
  | code hne hlead _ ih =>
    rcases room with _ | room
    · exact trie.walk_zero _ _ _
    · rw [hlead.walk hne, ih, List.take_succ_cons, List.length_cons]
      simp only [Nat.succ_le_succ_iff]

/-- **Bits say only one thing**: it is what a walk with room for everything finds. -/
theorem Decodes.unique (hclosed : trie.Closed) {i : Nat} {bits : Bits} {bytes bytes' : Bytes}
    {bit? bit?' : Option Nat} (h : trie.Decodes i bits bytes bit?)
    (h' : trie.Decodes i bits bytes' bit?') : bytes = bytes' ∧ bit? = bit?' := by
  have hwalk := h.walk_eq hclosed (bytes.length + bytes'.length + 1)
  rw [h'.walk_eq hclosed, List.take_of_length_le (by omega), List.take_of_length_le (by omega),
    if_neg (by omega), if_neg (by omega), Read.mk.injEq] at hwalk
  have hmap : Function.Injective (Option.map StreamFault.missingChild) :=
    Option.map_injective fun _ _ => StreamFault.missingChild.inj
  exact ⟨hwalk.1.symm, hmap hwalk.2.symm⟩

/-- The bit without a child is one of the bits. -/
theorem Decodes.lt_of_missing {i bit : Nat} {bits : Bits} {bytes : Bytes} {bit? : Option Nat}
    (h : trie.Decodes i bits bytes bit?) (hbit : bit? = some bit) :
    i ≤ bit ∧ bit < i + bits.length := by
  induction h with
  | done => cases hbit
  | missing =>
    cases hbit
    rw [List.length_append, List.length_cons]
    omega
  | code _ _ _ ih =>
    obtain ⟨hle, hlt⟩ := ih hbit
    rw [List.length_append]
    omega

end Trie

/-! ### The bits up to the bit count -/

/-- **Whether some bytes have the form of a stream is said by the bits up to the bit count.** -/
theorem Opens.of_take {input other : Bytes} {bitCount : UInt32} (h : Opens input bitCount)
    (htake : (Bits.ofBytes other).take bitCount.toNat = (Bits.ofBytes input).take bitCount.toNat) :
    Opens other bitCount := by
  have hcount : 8 ≤ bitCount.toNat := UInt32.le_iff_toNat_le.mp h.count
  have hlong := byteCount_le_iff.mp h.long
  refine ⟨head?_eq_one_iff.mpr ?_, h.count, byteCount_le_iff.mpr ?_⟩
  · rw [← head?_eq_one_iff.mp h.header, ← Nat.min_eq_left hcount, ← List.take_take, htake,
      List.take_take]
  · have hlength := congrArg List.length htake
    rw [List.length_take, List.length_take, Bits.length_ofBytes, Bits.length_ofBytes] at hlength
    omega

/-! ### Reading into a buffer -/

/-- **Reading cuts what the bits say at the end of the buffer.** Take a loaded trie, a stream, a
bit count and a buffer. If the stream has not the form it should have, reading is a fault and the
buffer is left alone. If it has, its data bits – all those the bit count asks for – say exactly one
thing, some bytes and perhaps a bit without a child, which is one of these bits; and

* if the bytes fill the buffer, so many of them as it holds are read, without a fault;
* otherwise all of them are read, and the bit without a child is a fault if there is one;
* in the buffer stand the bytes, cut at its end, and behind them what was there before;
* another stream with the same bits up to the bit count is read in the same way. -/
theorem decompress_cuts {words : Array UInt32} {trie : Trie}
    (htrie : Trie.ofWords words = .ok trie) (encoder : Encoder) (input buffer : Bytes)
    (bitCount : UInt32) :
    (¬ Opens input bitCount → ∃ fault,
      (Book.mk encoder trie).decompress input bitCount buffer = (.error fault, buffer)) ∧
    (Opens input bitCount →
      let bits := ((Bits.ofBytes input).take bitCount.toNat).drop 8
      bits.length = bitCount.toNat - 8 ∧
      (∃ bytes bit?, trie.Decodes 0 bits bytes bit? ∧
        (∀ bytes' bit?', trie.Decodes 0 bits bytes' bit?' → bytes' = bytes ∧ bit?' = bit?) ∧
        (∀ bit, bit? = some bit → bit < bits.length) ∧
        (Book.mk encoder trie).decompress input bitCount buffer =
          (if buffer.length ≤ bytes.length then .ok buffer.length
            else match bit? with
              | none => .ok bytes.length
              | some bit => .error (.corruptStream (.missingChild bit)),
            bytes.take buffer.length ++ buffer.drop bytes.length)) ∧
      ∀ other : Bytes,
        (Bits.ofBytes other).take bitCount.toNat = (Bits.ofBytes input).take bitCount.toNat →
        (Book.mk encoder trie).decompress other bitCount buffer =
          (Book.mk encoder trie).decompress input bitCount buffer) := by
  have hclosed := Trie.closed_of_ofWords htrie
  refine ⟨fun hform => ?_, fun hform => ⟨hform.length_bits, ?_, fun other htake => ?_⟩⟩
  · rcases hbits : dataBits input bitCount with fault | bits
    · exact ⟨fault, by rw [Book.decompress, hbits]⟩
    · exact absurd (opens_of_dataBits hbits) hform
  · obtain ⟨bytes, bit?, hsay⟩ :=
      hclosed.exists_decodes 0 (((Bits.ofBytes input).take bitCount.toNat).drop 8)
    refine ⟨bytes, bit?, hsay, fun bytes' bit?' hsay' => hsay'.unique hclosed hsay, ?_, ?_⟩
    · intro bit hbit
      have hlt := (hsay.lt_of_missing hbit).2
      rwa [Nat.zero_add] at hlt
    · rw [Book.decompress, hform.dataBits_eq]
      simp only [hsay.walk_eq hclosed, List.length_take]
      by_cases hfull : buffer.length ≤ bytes.length
      · rw [if_pos hfull, if_pos hfull, Nat.min_eq_left hfull, List.drop_length,
          List.drop_eq_nil_of_le hfull]
      · rw [if_neg hfull, if_neg hfull, Nat.min_eq_right (Nat.le_of_not_le hfull)]
        cases bit? <;> rfl
  · rw [Book.decompress, Book.decompress, (hform.of_take htake).dataBits_eq, hform.dataBits_eq,
      htake]

/-- Bit 0 stays at the root of this trie, and `10` is a code. Eight bits with two codes in them
and a bit without a child behind: a buffer of two bytes is filled, in one of three bytes the last
bit is a fault. -/
theorem decompress_cuts_cycle :
    let words : Array UInt32 := #[0x1004, 0x1004, 0x1014, 0, 0, 0x1024, 0, 0, 0, 0, 0, 0, 0x41]
    let book : Book :=
      ⟨Lengths.standard.encoder, ⟨#[.branch (some 0) (some 1), .branch (some 2) none, .leaf 0x41]⟩⟩
    Trie.ofWords words = .ok book.trie ∧ Opens [1, 0xD1, 0xFF] 16 ∧
      book.decompress [1, 0xD1, 0xFF] 16 [9, 9] = (.ok 2, [0x41, 0x41]) ∧
      book.decompress [1, 0xD1, 0xFF] 16 [9, 9, 9] =
        (.error (.corruptStream (.missingChild 7)), [0x41, 0x41, 9]) := by
  intro words book
  have hload : Trie.ofWords words = .ok book.trie := by cbv
  have hform : Opens [1, 0xD1, 0xFF] 16 := ⟨rfl, by decide, by decide⟩
  have hsay : book.trie.Decodes 0 ([true, false] ++ ([false, false, true, false] ++
      ([true] ++ [true]))) [0x41, 0x41] (some 7) :=
    .code (by decide) ⟨1, rfl, 2, rfl, rfl⟩ <|
      .code (by decide) ⟨0, rfl, 0, rfl, 1, rfl, 2, rfl, rfl⟩ <|
        .missing rfl (fun _ _ h => by cases h) rfl
  have hread : ∀ buffer, book.decompress [1, 0xD1, 0xFF] 16 buffer =
      (if buffer.length ≤ 2 then .ok buffer.length else .error (.corruptStream (.missingChild 7)),
        [0x41, 0x41].take buffer.length ++ buffer.drop 2) := by
    intro buffer
    obtain ⟨-, hopens⟩ := decompress_cuts hload book.encoder [1, 0xD1, 0xFF] buffer 16
    obtain ⟨-, ⟨bytes, bit?, -, honly, -, hread⟩, -⟩ := hopens hform
    obtain ⟨rfl, rfl⟩ := honly _ _ hsay
    exact hread
  exact ⟨hload, hform, hread [9, 9], hread [9, 9, 9]⟩

end Code

end ZoneRelay
