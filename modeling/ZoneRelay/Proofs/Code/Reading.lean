import ZoneRelay.Proofs.Code.Layout

/-!
# Writing again what was read

What is written can be read again (`ZoneRelay.Code.round_trip`). This file goes the other way:
**whatever was read is what stands in the stream**. A stream may come from anywhere, end in the
middle of a code, or hold more than there is room for. But if reading it gives some bytes, their
codes are the bits in front, and if there was room for more of them, the bits behind are the
beginning of another code (`ZoneRelay.Code.rewrite_read`).

For that it is not enough that the trie leads along every code to its byte
(`ZoneRelay.Code.Book.Faithful`): it may not lead anywhere else. A book is **exact**
(`ZoneRelay.Code.Book.Exact`) when in addition all bits that lead somewhere from the root are the
beginning of a code, and those that lead to a leaf are the code of its byte.

| | theorem |
|---|---|
| the trie of any code lengths leads from path to path | `ZoneRelay.Code.Lengths.path_of_descend?` |
| so its book is exact | `ZoneRelay.Code.Lengths.exists_exact_book` |
| a walk that does not get stuck reads whole codes | `ZoneRelay.Code.Book.Exact.walk` |
| their bits stand in front of the stream | `ZoneRelay.Code.Book.Exact.decompress` |

A walk is described with the bits that led to where it stands. At the root these are none, and
between two codes they are the beginning of the second; as no code begins another one, that
beginning is not a whole code.
-/

namespace ZoneRelay

namespace Code

/-! ### Exact books -/

/-- The node that bits lead to. -/
def Trie.descend? (trie : Trie) : (node : Nat) → Bits → Option Nat
  | node, [] => some node
  | node, bit :: rest => (trie.child? node bit).bind fun child => trie.descend? child rest

/-- One more bit leads to the child. -/
theorem Trie.descend?_append_singleton (trie : Trie) (node : Nat) (path : Bits) (bit : Bool) :
    trie.descend? node (path ++ [bit]) =
      (trie.descend? node path).bind fun last => trie.child? last bit := by
  induction path generalizing node with
  | nil =>
    rw [List.nil_append, descend?, descend?, Option.bind_some]
    rcases trie.child? node bit with _ | child <;> rfl
  | cons first rest ih =>
    rw [List.cons_append, descend?, descend?]
    rcases trie.child? node first with _ | child
    · rfl
    · exact ih child

/-- Along a code bits lead to the leaf with its byte. -/
theorem Trie.Leads.node?_of_descend? {trie : Trie} {node last : Nat} {word : Bits} {byte : UInt8}
    (h : trie.Leads node word byte) (hlast : trie.descend? node word = some last) :
    trie.node? last = some (.leaf byte) := by
  induction word generalizing node with
  | nil =>
    cases hlast
    exact h
  | cons bit rest ih =>
    obtain ⟨child, hchild, hlead⟩ := h
    rw [descend?, hchild, Option.bind_some] at hlast
    exact ih hlead hlast

/-- **The trie leads nowhere but along the codes**: bits that lead from the root to a node are the
beginning of a code, and if the node is a leaf they are the code of its byte. -/
structure Book.Exact (book : Book) : Prop where
  faithful : book.Faithful
  begins : ∀ path node, book.trie.descend? 0 path = some node →
    ∃ b, path <+: (book.encoder.entry b).word
  ends : ∀ path node byte, book.trie.descend? 0 path = some node →
    book.trie.node? node = some (.leaf byte) → path = (book.encoder.entry byte).word

/-! ### The books of code lengths -/

namespace Lengths

variable (lengths : Lengths) {survey : Table.Survey}

/-- The child of the node of a path is the node of a path one bit longer. -/
theorem path_of_child? (hs : Table.Survey.Sound lengths.table (slotOf 0) survey)
    (hsize : survey.nodes.size = survey.slots.items.size) {path : Bits} {k id child : Nat}
    {bit : Bool} (hk : lengths.paths.items[k]? = some path)
    (hid : survey.slots.items[id]? = some (slotOf k))
    (hchild : Trie.child? ⟨survey.nodes⟩ id bit = some child) :
    ∃ next, lengths.paths.items[next]? = some (path ++ [bit]) ∧
      survey.slots.items[child]? = some (slotOf next) := by
  obtain ⟨node, hnode, hholds⟩ := hs.exists_node hsize hid
  cases node with
  | leaf byte => simp [Trie.child?, Trie.node?, hnode] at hchild
  | branch left right =>
    have hstands : Table.Stands survey.slots (if bit then right else left)
        (lengths.table.follow (slotOf k + bit.toNat)) := by
      cases bit
      · exact hholds.2.1
      · exact hholds.2.2
    have hside : (if bit then right else left) = some child := by
      simpa [Trie.child?, Trie.node?, hnode] using hchild
    rw [hside, lengths.follow_slotOf hk] at hstands
    rcases hnext : lengths.paths.ids[path ++ [bit]]? with _ | next
    · rw [hnext] at hstands
      cases hstands
    · rw [hnext] at hstands
      cases hstands with
      | some hslot => exact ⟨next, (lengths.lawful_paths _ _).mp hnext, hslot⟩

/-- **The trie leads from path to path.** -/
theorem path_of_descend? (hs : Table.Survey.Sound lengths.table (slotOf 0) survey)
    (hsize : survey.nodes.size = survey.slots.items.size) {more : Bits} :
    ∀ {path : Bits} {k id last : Nat}, lengths.paths.items[k]? = some path →
      survey.slots.items[id]? = some (slotOf k) →
      Trie.descend? ⟨survey.nodes⟩ id more = some last →
      ∃ next, lengths.paths.items[next]? = some (path ++ more) ∧
        survey.slots.items[last]? = some (slotOf next) := by
  induction more with
  | nil =>
    rintro path k id last hk hid ⟨⟩
    exact ⟨k, by rwa [List.append_nil], hid⟩
  | cons bit rest ih =>
    intro path k id last hk hid hlast
    rw [Trie.descend?, Option.bind_eq_some_iff] at hlast
    obtain ⟨child, hchild, hlast⟩ := hlast
    obtain ⟨next, hnext, hslot⟩ := lengths.path_of_child? hs hsize hk hid hchild
    obtain ⟨final, hfinal, hslot⟩ := ih hnext hslot hlast
    exact ⟨final, by rwa [List.append_assoc, List.singleton_append] at hfinal, hslot⟩

/-- The node of a path is a leaf only where the path is the code of its byte. -/
theorem word_of_leaf (hs : Table.Survey.Sound lengths.table (slotOf 0) survey)
    (hsize : survey.nodes.size = survey.slots.items.size) {path : Bits} {k id : Nat}
    {byte : UInt8} (hk : lengths.paths.items[k]? = some path)
    (hid : survey.slots.items[id]? = some (slotOf k))
    (hleaf : survey.nodes[id]? = some (.leaf byte)) : path = lengths.word byte := by
  obtain ⟨node, hnode, hholds⟩ := hs.exists_node hsize hid
  rw [hleaf, Option.some.injEq] at hnode
  subst hnode
  obtain ⟨b, rest, hrest⟩ := lengths.mem_paths.mp (Array.mem_of_getElem? hk)
  rcases rest with _ | ⟨bit, rest⟩
  · rw [List.append_nil] at hrest
    have hvalue := lengths.value_word (hrest ▸ hk)
    rw [hholds.2.2, Option.some.injEq] at hvalue
    have hbyte := congrArg UInt32.toUInt8 hvalue
    rw [UInt8.toUInt8_toUInt32, UInt8.toUInt8_toUInt32] at hbyte
    rw [hrest, hbyte]
  · -- a path that is no whole code goes on
    obtain ⟨next, hnext⟩ := lengths.exists_ids hrest
    have hfollow := lengths.follow_slotOf hk bit
    rw [hnext] at hfollow
    cases bit
    · exact absurd (hholds.1.symm.trans hfollow) nofun
    · exact absurd (hholds.2.1.symm.trans hfollow) nofun

/-- **The book of any code lengths** is exact. -/
theorem exists_exact_book : ∃ book, lengths.book = .ok book ∧ book.encoder = lengths.encoder ∧
    book.Exact := by
  obtain ⟨survey, hbook, hs, hsize⟩ := lengths.exists_survey
  have hpath : ∀ path node, Trie.descend? ⟨survey.nodes⟩ 0 path = some node →
      ∃ k, lengths.paths.items[k]? = some path ∧ survey.slots.items[node]? = some (slotOf k) :=
    fun _ _ => lengths.path_of_descend? hs hsize lengths.getElem?_paths_zero hs.rooted
  refine ⟨_, hbook, rfl, lengths.faithful_of_survey hs hsize, ?_, ?_⟩
  · intro path node hnode
    obtain ⟨k, hk, -⟩ := hpath path node hnode
    obtain ⟨b, hbegins⟩ := lengths.mem_paths.mp (Array.mem_of_getElem? hk)
    exact ⟨b, by rwa [entry_encoder, word_entry]⟩
  · intro path node byte hnode hleaf
    obtain ⟨k, hk, hslot⟩ := hpath path node hnode
    rw [entry_encoder, word_entry]
    exact lengths.word_of_leaf hs hsize hk hslot hleaf

end Lengths

/-! ### Walking the trie -/

namespace Book

namespace Exact

variable {book : Book}

/-- **The bits that led to a branch** are the beginning of a code, and no whole one. -/
theorem properly_begins (h : book.Exact) {path : Bits} {node : Nat}
    (hnode : book.trie.descend? 0 path = some node)
    (hbranch : ∀ byte, book.trie.node? node ≠ some (.leaf byte)) :
    ∃ b, path <+: (book.encoder.entry b).word ∧ path ≠ (book.encoder.entry b).word := by
  obtain ⟨b, hbegins⟩ := h.begins path node hnode
  refine ⟨b, hbegins, ?_⟩
  rintro rfl
  exact hbranch b ((h.faithful b).2.node?_of_descend? hnode)

/-- The root is no leaf. -/
theorem root_ne_leaf (h : book.Exact) (byte : UInt8) :
    book.trie.node? 0 ≠ some (.leaf byte) := by
  intro hleaf
  exact (h.faithful byte).1 (h.ends [] 0 byte rfl hleaf).symm

/-- **A walk that does not get stuck** reads whole codes: the bits that led to where it starts and
those it walks along are the codes of what it reads, and if it could read more, the beginning of
another code. -/
theorem walk (h : book.Exact) (room node i : Nat) (path bits : Bits)
    (hnode : book.trie.descend? 0 path = some node)
    (hbranch : ∀ byte, book.trie.node? node ≠ some (.leaf byte))
    (hstuck : (book.trie.walk room node i bits).stuck = none) :
    (book.trie.walk room node i bits).bytes.length ≤ room ∧
      ∃ rest, path ++ bits =
          book.encoder.encode (book.trie.walk room node i bits).bytes ++ rest ∧
        ((book.trie.walk room node i bits).bytes.length < room →
          ∃ b, rest <+: (book.encoder.entry b).word ∧ rest ≠ (book.encoder.entry b).word) := by
  induction bits generalizing room node i path with
  | nil =>
    rcases room with _ | room
    · exact ⟨Nat.le_refl _, path, List.append_nil path,
        fun hlt => absurd hlt (Nat.not_lt_zero _)⟩
    · exact ⟨Nat.zero_le _, path, List.append_nil path,
        fun _ => h.properly_begins hnode hbranch⟩
  | cons bit bits ih =>
    rcases room with _ | room
    · exact ⟨Nat.le_refl _, path ++ bit :: bits, rfl,
        fun hlt => absurd hlt (Nat.not_lt_zero _)⟩
    · rcases hchild : book.trie.child? node bit with _ | child
      · simp only [Trie.walk, hchild] at hstuck
        cases hstuck
      · have hpath : book.trie.descend? 0 (path ++ [bit]) = some child := by
          rw [Trie.descend?_append_singleton, hnode, Option.bind_some, hchild]
        rcases hfound : book.trie.node? child with _ | ⟨left, right⟩ | byte
        · simp only [Trie.walk, hchild, hfound] at hstuck
          cases hstuck
        · have hwalk : book.trie.walk (room + 1) node i (bit :: bits) =
              book.trie.walk (room + 1) child (i + 1) bits := by
            simp only [Trie.walk, hchild, hfound]
          have hbranching : ∀ byte, book.trie.node? child ≠ some (.leaf byte) := by
            intro byte hleaf
            rw [hfound] at hleaf
            cases hleaf
          rw [hwalk] at hstuck ⊢
          obtain ⟨hle, rest, hrest, hmore⟩ := ih (room + 1) child (i + 1) (path ++ [bit]) hpath
            hbranching hstuck
          exact ⟨hle, rest, by rw [← hrest, List.append_assoc, List.singleton_append], hmore⟩
        · -- the bits so far are the code of this byte, and the walk starts over
          have hwalk : book.trie.walk (room + 1) node i (bit :: bits) =
              ⟨byte :: (book.trie.walk room 0 (i + 1) bits).bytes,
                (book.trie.walk room 0 (i + 1) bits).stuck⟩ := by
            simp only [Trie.walk, hchild, hfound]
          rw [hwalk] at hstuck ⊢
          obtain ⟨hle, rest, hrest, hmore⟩ := ih room 0 (i + 1) [] rfl h.root_ne_leaf hstuck
          have hword := h.ends (path ++ [bit]) child byte hpath hfound
          refine ⟨Nat.succ_le_succ hle, rest, ?_, fun hlt => hmore (Nat.lt_of_succ_lt_succ hlt)⟩
          rw [List.nil_append] at hrest
          rw [Encoder.encode_cons, ← hword, List.append_assoc, ← hrest, List.append_assoc,
            List.singleton_append]

end Exact

end Book

/-- A walk along the beginning of a code reads nothing more. -/
theorem Trie.Leads.walk_beginning {trie : Trie} {node : Nat} {front back : Bits} {byte : UInt8}
    (h : trie.Leads node (front ++ back) byte) (hback : back ≠ []) (room i : Nat) :
    trie.walk room node i front = ⟨[], none⟩ := by
  induction front generalizing node i with
  | nil => cases room <;> rfl
  | cons bit rest ih =>
    rcases room with _ | room
    · rfl
    · rw [List.cons_append] at h
      obtain ⟨child, hchild, hlead⟩ := h
      obtain ⟨left, right, hbranch⟩ :
          ∃ left right, trie.node? child = some (.branch left right) := by
        rcases hmore : rest ++ back with _ | ⟨next, more⟩
        · exact absurd (List.append_eq_nil_iff.mp hmore).2 hback
        · rw [hmore] at hlead
          obtain ⟨grandchild, hgrand, -⟩ := hlead
          exact exists_branch hgrand
      simp only [Trie.walk, hchild, hbranch]
      exact ih hlead (i + 1)

/-- **A stream that ends inside a code** gives the bytes in front of that. -/
theorem Book.Faithful.walk_encode_append {book : Book} (h : book.Faithful) {front back : Bits}
    {byte : UInt8} (hword : (book.encoder.entry byte).word = front ++ back) (hback : back ≠ [])
    (room i : Nat) (input : Bytes) :
    book.trie.walk room 0 i (book.encoder.encode input ++ front) = ⟨input.take room, none⟩ := by
  induction input generalizing room i with
  | nil =>
    rw [Encoder.encode_nil, List.nil_append, List.take_nil]
    exact (hword ▸ (h byte).2).walk_beginning hback room i
  | cons b rest ih =>
    rcases room with _ | room
    · rw [Trie.walk, List.take_zero]
    · obtain ⟨hne, hlead⟩ := h b
      rw [Encoder.encode_cons, List.append_assoc, hlead.walk hne, ih, List.take_succ_cons]

/-! ### The bits of a stream -/

/-- **The bits of a stream** up to its bit count are those of the byte `1` and its data bits. -/
theorem dataBits_eq_ok {input : Bytes} {bitCount : UInt32} {bits : Bits}
    (h : dataBits input bitCount = .ok bits) :
    (Bits.ofBytes input).take bitCount.toNat = Bits.ofByte 1 ++ bits ∧
      bitCount.toNat = bits.length + 8 := by
  have hform := opens_of_dataBits h
  have hcount : 8 ≤ bitCount.toNat := UInt32.le_iff_toNat_le.mp hform.count
  rw [hform.dataBits_eq] at h
  obtain rfl := Except.ok.inj h
  constructor
  · have hfirst : ((Bits.ofBytes input).take bitCount.toNat).take 8 = Bits.ofByte 1 := by
      rw [List.take_take, Nat.min_eq_left hcount, head?_eq_one_iff.mp hform.header]
    rw [← hfirst, List.take_append_drop]
  · rw [hform.length_bits]
    omega

/-- **A compressed stream** is the byte `1` and the codes, if its bit count does not overflow. -/
theorem Book.exists_compressed (book : Book) {input : Bytes}
    (hsmall : (book.encoder.encode input).length + 8 < 2 ^ 32) :
    ∃ count stream, book.compressed input = .ok (count, stream) ∧
      stream.length = Bits.byteCount count.toNat ∧
      (Bits.ofBytes stream).take count.toNat = Bits.ofByte 1 ++ book.encoder.encode input ∧
      count.toNat = (book.encoder.encode input).length + 8 := by
  obtain ⟨count, buffer, hwrite, hcompressed⟩ := book.compressed_eq input
  have hlength := book.length_take_compress hsmall hwrite
  obtain ⟨first, body, -, hfit, rfl, rfl⟩ := book.compress_eq_ok hwrite
  have hcount := toNat_bitCount hsmall
  refine ⟨_, _, hcompressed, hlength, ?_, hcount⟩
  have hsum : (book.encoder.encode input).length + 8 =
      (Bits.ofByte 1).length + (book.encoder.encode input).length := by
    rw [Bits.length_ofByte, Nat.add_comm]
  have hbytes : (Bits.ofByte 1).length + (book.encoder.encode input).length ≤
      8 * Bits.byteCount ((Bits.ofByte 1).length + (book.encoder.encode input).length) := by
    rw [Bits.byteCount]
    omega
  rw [Bits.ofBytes_take, List.take_take, hcount, hsum, Nat.min_eq_left hbytes, Bits.ofBytes_cons,
    List.take_length_add_append, Bits.ofBytes_overwrite hfit, List.take_left]

/-- **Writing again what was read** gives the front of the stream, and if there was room for more,
what is behind is the beginning of a code. -/
theorem Book.Exact.decompress {book : Book} (h : book.Exact) {input output written : Bytes}
    {bitCount : UInt32} {n : Nat}
    (hread : book.decompress input bitCount output = (.ok n, written)) :
    n ≤ output.length ∧ ∃ count stream rest,
      book.compressed (written.take n) = .ok (count, stream) ∧
      stream.length = Bits.byteCount count.toNat ∧
      (Bits.ofBytes input).take bitCount.toNat = (Bits.ofBytes stream).take count.toNat ++ rest ∧
      bitCount.toNat = count.toNat + rest.length ∧
      (n < output.length →
        ∃ b, rest <+: (book.encoder.entry b).word ∧ rest ≠ (book.encoder.entry b).word) := by
  rw [Book.decompress] at hread
  rcases hbits : dataBits input bitCount with fault | bits
  · rw [hbits] at hread
    cases hread
  · rcases hstuck : (book.trie.walk output.length 0 0 bits).stuck with _ | cause
    · simp only [hbits, hstuck] at hread
      cases hread
      obtain ⟨hinput, hcount⟩ := dataBits_eq_ok hbits
      obtain ⟨hle, rest, hrest, hmore⟩ :=
        h.walk output.length 0 0 [] bits rfl h.root_ne_leaf hstuck
      rw [List.nil_append] at hrest
      have hlength := congrArg List.length hrest
      rw [List.length_append] at hlength
      have hfits := bitCount.toNat_lt
      obtain ⟨count, stream, hcompressed, hstream, hbytes, hcount'⟩ :=
        @book.exists_compressed (book.trie.walk output.length 0 0 bits).bytes (by omega)
      refine ⟨hle, count, stream, rest, ?_, hstream, ?_, by omega, hmore⟩
      · rw [List.take_left, hcompressed]
      · rw [hinput, hbytes, List.append_assoc, ← hrest]
    · simp only [hbits, hstuck] at hread
      cases hread

/-- **Re-encoding undoes decoding.** The resources of any code lengths load into a book, and with
this book, whatever stream, bit count and output are given: if reading gives `n` bytes, writing
them again gives a stream with no larger bit count, and up to that bit count it has the bits of
the stream that was read, the byte in front included. And if there was room for more bytes, the
bits behind are the beginning of a code and no whole one; so they are fewer than the longest code
has. -/
theorem rewrite_read (lengths : Lengths) : ∃ book, lengths.book = .ok book ∧
    book.encoder = lengths.encoder ∧
    ∀ (input output written : Bytes) (bitCount : UInt32) (n : Nat),
      book.decompress input bitCount output = (.ok n, written) →
      n ≤ output.length ∧ ∃ count stream,
        book.compressed (written.take n) = .ok (count, stream) ∧ count ≤ bitCount ∧
        stream.length = Bits.byteCount count.toNat ∧
        (Bits.ofBytes stream).take count.toNat = (Bits.ofBytes input).take count.toNat ∧
        (n < output.length →
          let rest := ((Bits.ofBytes input).take bitCount.toNat).drop count.toNat
          (∃ b, rest <+: lengths.word b ∧ rest ≠ lengths.word b) ∧
            rest.length = (bitCount - count).toNat ∧ rest.length < book.encoder.longest) := by
  obtain ⟨book, hbook, hencoder, hexact⟩ := lengths.exists_exact_book
  refine ⟨book, hbook, hencoder, fun input output written bitCount n hread => ?_⟩
  obtain ⟨hle, count, stream, rest, hcompressed, hstream, hbits, hcount, hmore⟩ :=
    hexact.decompress hread
  have hlength : ((Bits.ofBytes stream).take count.toNat).length = count.toNat := by
    rw [List.length_take, Bits.length_ofBytes, hstream, Bits.byteCount]
    omega
  have hsmaller : count ≤ bitCount := by
    rw [UInt32.le_iff_toNat_le]
    omega
  have hdrop : ((Bits.ofBytes input).take bitCount.toNat).drop count.toNat = rest := by
    rw [hbits]
    exact List.drop_left' hlength
  refine ⟨hle, count, stream, hcompressed, hsmaller, hstream, ?_, fun hroom => ?_⟩
  · have hfront := congrArg (List.take count.toNat) hbits
    rw [List.take_take, Nat.min_eq_left (by omega), List.take_append_of_le_length hlength.ge,
      List.take_take, Nat.min_self] at hfront
    exact hfront.symm
  · obtain ⟨b, hbegins, hne⟩ := hmore hroom
    simp only [hdrop]
    refine ⟨⟨b, ?_⟩, ?_, ?_⟩
    · rw [hencoder, Lengths.entry_encoder, Lengths.word_entry] at hbegins hne
      exact ⟨hbegins, hne⟩
    · rw [UInt32.toNat_sub_of_le _ _ hsmaller, hcount, Nat.add_sub_cancel_left]
    · have hlongest := book.encoder.bits_le_longest b
      have hshort := hbegins.length_le
      rw [Entry.length_word] at hshort
      refine Nat.lt_of_lt_of_le (Nat.lt_of_le_of_ne hshort fun hsame => hne ?_) hlongest
      exact hbegins.eq_of_length (by rw [hsame, Entry.length_word])

/-- With the standard lengths, a stream that ends inside the third code: two bytes, written again
in four bits less. -/
theorem rewrite_read_standard : ∃ book count stream, Lengths.standard.book = .ok book ∧
    book.decompress [1, 0xCC, 0x8F] 22 [7, 7, 7, 7] = (.ok 2, [0x20, 0x41, 7, 7]) ∧
    book.compressed [0x20, 0x41] = .ok (count, stream) ∧
    (Bits.ofBytes stream).take count.toNat = (Bits.ofBytes [1, 0xCC, 0x8F]).take count.toNat ∧
    ((22 : UInt32) - count).toNat < book.encoder.longest := by
  obtain ⟨book, hbook, hencoder, hrewrite⟩ := rewrite_read Lengths.standard
  obtain ⟨_, hbook', -, hfaithful⟩ := Lengths.standard.exists_book
  obtain rfl := Except.ok.inj (hbook.symm.trans hbook')
  have hbits : dataBits [1, 0xCC, 0x8F] 22 =
      .ok (book.encoder.encode [0x20, 0x41] ++ [false, false]) := by
    rw [hencoder]
    simp only [Encoder.encode_cons, Encoder.encode_nil, Lengths.entry_encoder]
    decide +kernel
  have hword : (book.encoder.entry 0).word = [false, false] ++ [false] := by
    rw [hencoder, Lengths.entry_encoder]
    decide +kernel
  have hread : book.decompress [1, 0xCC, 0x8F] 22 [7, 7, 7, 7] = (.ok 2, [0x20, 0x41, 7, 7]) := by
    rw [Book.decompress, hbits]
    simp only [hfaithful.walk_encode_append hword (List.cons_ne_nil _ _)]
    rfl
  obtain ⟨-, count, stream, hcompressed, -, -, hfront, hrest⟩ := hrewrite _ _ _ _ _ hread
  obtain ⟨-, hlength, hlt⟩ := hrest (by decide)
  exact ⟨book, count, stream, hbook, hread, hcompressed, hfront, hlength ▸ hlt⟩

end Code

end ZoneRelay
