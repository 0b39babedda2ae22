import ZoneRelay.Code.Book
import ZoneRelay.Proofs.Code.Canonical
import ZoneRelay.Proofs.Code.Loading
import ZoneRelay.Proofs.Code.Stream

/-!
# The resource words of a code load

`ZoneRelay.Code.Layout` writes the two resources of a code; this file loads them again. Both
load without a fault, the encoder is the one they were written from, and the trie leads
along every code to its byte – so **the book of any code lengths is faithful**
(`ZoneRelay.Code.Lengths.exists_book`).

The encode table is a permutation of the entries, by signed byte, that reading undoes. For
the decode table the argument follows the paths. A path is the beginning of a code, path
number `k` lies in the slot `ZoneRelay.Code.slotOf k`, and

* a pointer leads from one path to the path that is one bit longer, if that one is the
  beginning of a code (`ZoneRelay.Code.Lengths.follow_slotOf`);
* so every slot that can be reached is the slot of a path
  (`ZoneRelay.Code.Lengths.exists_path`);
* a path without a longer one is a whole code, and only one byte has it
  (`ZoneRelay.Code.Lengths.word_injective_prefix`), so its slot holds that byte.

There are at most `256 * 33 + 1` paths, so that no pointer overflows.
-/

namespace ZoneRelay

namespace Code

/-! ### The encode table -/

namespace Encoder

theorem ofFn_entry (encoder : Encoder) : ofFn encoder.entry = encoder := by
  obtain ⟨entries⟩ := encoder
  rw [ofFn, Encoder.mk.injEq]
  refine Vector.ext fun i hi => ?_
  have hindex : index i.toUInt8 = ⟨i, hi⟩ := Fin.ext (by simp [index, Nat.mod_eq_of_lt hi])
  rw [Vector.getElem_ofFn, entry, hindex]
  rfl

/-- The entries by signed byte. -/
theorem getElem?_signed {α : Type} (encoder : Encoder) (f : Entry → α) (b : UInt8) :
    (((List.range 256).map fun i => encoder.entry (i.toUInt8 + 128)).map f)[signedIndex b]? =
      some (f (encoder.entry b)) := by
  have hb : (signedIndex b).toUInt8 + 128 = b := by
    rw [signedIndex, Nat.toUInt8_eq, UInt8.ofNat_toNat, UInt8.add_assoc]
    exact UInt8.add_zero b
  rw [List.getElem?_map, List.getElem?_map, List.getElem?_range (signedIndex_lt b), Option.map_some,
    Option.map_some, hb]

theorem patternWord_toWords (encoder : Encoder) (b : UInt8) :
    patternWord encoder.toWords.toArray b = (encoder.entry b).pattern := by
  have hlt := signedIndex_lt b
  rw [patternWord, Array.getD_eq_getD_getElem?, List.getElem?_toArray, toWords,
    List.getElem?_append_left (by simpa using hlt), getElem?_signed]
  rfl

theorem lengthWord_toWords (encoder : Encoder) (b : UInt8) :
    lengthWord encoder.toWords.toArray b = (encoder.entry b).bits.toUInt32 := by
  have hlt := signedIndex_lt b
  rw [lengthWord, Array.getD_eq_getD_getElem?, List.getElem?_toArray, toWords,
    List.getElem?_append_right (by simp)]
  have hsub : 256 + signedIndex b - (((List.range 256).map fun i =>
      encoder.entry (i.toUInt8 + 128)).map (·.pattern)).length = signedIndex b := by simp
  rw [hsub, getElem?_signed]
  rfl

/-- **Reading an encode table undoes writing it**, for codes of at most 32 bits. -/
theorem ofWords_toWords {encoder : Encoder} (h : ∀ b, (encoder.entry b).bits ≤ 32) :
    ofWords encoder.toWords.toArray = .ok encoder := by
  have hbits : ∀ b, (encoder.entry b).bits.toUInt32.toNat = (encoder.entry b).bits := fun b => by
    have := h b
    simp [Nat.mod_eq_of_lt (by omega : (encoder.entry b).bits < 4294967296)]
  have hfind : allBytes.find? (fun b => 32 < lengthWord encoder.toWords.toArray b) = none := by
    refine List.find?_eq_none.mpr fun b _ hb => ?_
    rw [decide_eq_true_eq, lengthWord_toWords, UInt32.lt_iff_toNat_lt, hbits] at hb
    exact absurd (h b) (Nat.not_le.mpr hb)
  rw [ofWords, if_neg (by simp [toWords]), hfind]
  simp only [patternWord_toWords, lengthWord_toWords, hbits]
  exact congrArg Except.ok encoder.ofFn_entry

/-- **What was read from an encode table has no code of more than 32 bits.** -/
theorem bits_le_of_ofWords {words : Array UInt32} {encoder : Encoder}
    (h : ofWords words = .ok encoder) (b : UInt8) : (encoder.entry b).bits ≤ 32 := by
  rw [ofWords] at h
  split at h
  · cases h
  · split at h
    · cases h
    · rename_i hfind
      have hbits := List.find?_eq_none.mp hfind b (mem_allBytes b)
      rw [decide_eq_true_eq, UInt32.lt_iff_toNat_lt] at hbits
      rw [← Except.ok.inj h, entry_ofFn]
      exact Nat.le_of_not_lt hbits

end Encoder

/-- **A code book that comes from two tables.** -/
def Book.Loaded (book : Book) : Prop :=
  ∃ encode decode, Book.ofWords encode decode = .ok book

theorem Book.Loaded.bits_le {book : Book} (h : book.Loaded) (b : UInt8) :
    (book.encoder.entry b).bits ≤ 32 := by
  obtain ⟨encode, decode, hbook⟩ := h
  rw [Book.ofWords] at hbook
  rcases hencoder : Encoder.ofWords encode with fault | encoder
  · rw [hencoder] at hbook
    cases hbook
  · rcases htrie : Trie.ofWords decode with fault | trie
    · rw [hencoder, htrie] at hbook
      cases hbook
    · rw [hencoder, htrie] at hbook
      cases hbook
      exact Encoder.bits_le_of_ofWords hencoder b

/-! ### Pointers -/

theorem toNat_pointerTo {k : Nat} (h : k < 10000) :
    (pointerTo k).toNat = 0x1000 + 4 * slotOf k := by
  have hslot : (slotOf k).toUInt32.toNat = slotOf k := by
    simp only [slotOf, Nat.toUInt32_eq, UInt32.toNat_ofNat']
    exact Nat.mod_eq_of_lt (by omega)
  rw [pointerTo, UInt32.toNat_add, UInt32.toNat_mul, hslot]
  simp only [UInt32.reduceToNat, slotOf]
  omega

/-- A pointer leads to the slot it was made for. -/
theorem target?_pointerTo {k : Nat} (h : k < 10000) :
    target? 0x1000 (pointerTo k) = some (slotOf k) := by
  have hnat := toNat_pointerTo h
  have hle : ¬ pointerTo k ≤ 0xFF := by
    rw [UInt32.le_iff_toNat_le, hnat]
    show ¬ 0x1000 + 4 * slotOf k ≤ 255
    omega
  have hbase : (0x1000 : UInt32) ≤ pointerTo k := by
    rw [UInt32.le_iff_toNat_le, hnat]
    show 4096 ≤ 0x1000 + 4 * slotOf k
    omega
  rw [target?, if_neg hle, UInt32.toNat_div, UInt32.toNat_sub_of_le _ _ hbase, hnat]
  show some ((0x1000 + 4 * slotOf k - 0x1000) / 4) = some (slotOf k)
  rw [Nat.add_sub_cancel_left, Nat.mul_div_cancel_left _ (by omega)]

theorem target?_childEntry {child : Option Nat} (h : ∀ k, child = some k → k < 10000) :
    target? 0x1000 (childEntry child) = child.map slotOf := by
  cases child with
  | none => rfl
  | some k => exact target?_pointerTo (h k rfl)

/-- Looking up a row of groups of four. -/
theorem getElem?_flatMap_four {α β : Type} {f : α → List β} (hf : ∀ a, (f a).length = 4)
    (items : List α) (k : Nat) {j : Nat} (hj : j < 4) :
    (items.flatMap f)[4 * k + j]? = (items[k]?).bind fun a => (f a)[j]? := by
  induction items generalizing k with
  | nil => simp
  | cons a rest ih =>
    rw [List.flatMap_cons]
    cases k with
    | zero =>
      rw [List.getElem?_append_left (by rw [hf]; omega), Nat.mul_zero, Nat.zero_add]
      rfl
    | succ k =>
      rw [List.getElem?_append_right (by rw [hf]; omega), hf, List.getElem?_cons_succ, ← ih]
      congr 1
      omega

namespace Lengths

variable (lengths : Lengths)

/-! ### The paths -/

theorem mem_beginnings {path word : Bits} : path ∈ beginnings word ↔ path <+: word := by
  rw [beginnings, List.mem_map]
  constructor
  · rintro ⟨n, -, rfl⟩
    exact List.take_prefix n word
  · intro h
    exact ⟨path.length, List.mem_range.mpr (Nat.lt_succ_of_le h.length_le),
      (List.prefix_iff_eq_take.mp h).symm⟩

theorem lawful_paths : lengths.paths.Lawful :=
  (Numbering.lawful_empty.meet []).meetAll _

/-- The root is path number `0`. -/
theorem getElem?_paths_zero : lengths.paths.items[0]? = some [] := by
  refine Numbering.extends_meetAll _ _ 0 [] ?_
  rw [Numbering.meet_of_not_ids (Numbering.lawful_empty.ids_eq_none (by simp [Numbering.empty]))]
  rfl

/-- **The paths are the beginnings of the codes.** -/
theorem mem_paths {path : Bits} :
    path ∈ lengths.paths.items ↔ ∃ b, path <+: lengths.word b := by
  rw [paths, (Numbering.lawful_empty.meet []).mem_meetAll, Numbering.lawful_empty.mem_meet]
  have hempty : path ∉ (Numbering.empty : Numbering Bits).items := by simp [Numbering.empty]
  simp only [hempty, false_or, List.mem_flatMap, words, List.mem_map]
  constructor
  · rintro (rfl | ⟨_, ⟨b, -, rfl⟩, hmem⟩)
    · exact ⟨0, List.nil_prefix⟩
    · exact ⟨b, mem_beginnings.mp hmem⟩
  · rintro ⟨b, h⟩
    exact Or.inr ⟨_, ⟨b, mem_allBytes b, rfl⟩, mem_beginnings.mpr h⟩

theorem size_paths_lt : lengths.paths.items.size < 10000 := by
  have hroot : ((Numbering.empty : Numbering Bits).meet []).2.items.size = 1 := by
    rw [Numbering.meet_of_not_ids (Numbering.lawful_empty.ids_eq_none (by simp [Numbering.empty]))]
    rfl
  have hlen : (lengths.words.flatMap fun entry => beginnings entry.2).length ≤ 256 * 33 := by
    rw [List.length_flatMap, words, List.map_map]
    refine (List.sum_le_card_nsmul _ 33 fun n hn => ?_).trans_eq ?_
    · obtain ⟨b, -, rfl⟩ := List.mem_map.mp hn
      have := lengths.length_le b
      simp only [Function.comp_apply, beginnings, List.length_map, List.length_range, length_word]
      omega
    · simp [length_allBytes]
  have hsize := Numbering.size_meetAll_le (Numbering.empty.meet []).2
    (lengths.words.flatMap fun entry => beginnings entry.2)
  rw [paths]
  omega

/-- The number of a path is small. -/
theorem lt_of_ids {path : Bits} {k : Nat} (h : lengths.paths.ids[path]? = some k) :
    k < lengths.paths.items.size :=
  (Array.getElem?_eq_some_iff.mp ((lengths.lawful_paths path k).mp h)).1

/-- The bytes of the codes. -/
def byteOf : Std.HashMap Bits UInt8 :=
  Std.HashMap.ofList (lengths.words.map fun entry => (entry.2, entry.1))

theorem getElem?_byteOf (b : UInt8) : lengths.byteOf[lengths.word b]? = some b := by
  refine Std.HashMap.getElem?_ofList_of_mem (k := lengths.word b) (by simp) ?_ ?_
  · rw [words, List.map_map, List.pairwise_map]
    refine nodup_allBytes.imp fun {c d} hne => ?_
    simp only [Function.comp_apply, beq_eq_false_iff_ne, ne_eq]
    intro heq
    exact hne (lengths.word_injective_prefix (heq ▸ List.prefix_rfl))
  · rw [words, List.map_map]
    exact List.mem_map.mpr ⟨b, mem_allBytes b, rfl⟩

/-! ### The decode table -/

/-- The words of a path's node. -/
def nodeWords (path : Bits) : List UInt32 :=
  [childEntry lengths.paths.ids[path ++ [false]]?, childEntry lengths.paths.ids[path ++ [true]]?, 0,
    ((lengths.byteOf[path]?).map (·.toUInt32)).getD 0]

theorem decodeWords_eq : lengths.decodeWords =
    pointerTo 0 :: lengths.paths.items.toList.flatMap lengths.nodeWords := rfl

/-- The decode table. Its base is fixed, as the root's slot is. -/
def table : Table := ⟨lengths.decodeWords.toArray, 0x1000⟩

theorem base_table : lengths.table.base = 0x1000 := rfl

theorem size_words_table :
    lengths.table.words.size = 1 + 4 * lengths.paths.items.size := by
  rw [table, List.size_toArray, decodeWords_eq, List.length_cons, List.length_flatMap]
  simp [nodeWords]
  omega

/-- The words of path number `k`. -/
theorem getElem?_table {k : Nat} {path : Bits} (hk : lengths.paths.items[k]? = some path) {j : Nat}
    (hj : j < 4) : lengths.table.words[slotOf k + j]? = (lengths.nodeWords path)[j]? := by
  have hpos : slotOf k + j = (4 * k + j) + 1 := by rw [slotOf]; omega
  rw [table, List.getElem?_toArray, decodeWords_eq, hpos, List.getElem?_cons_succ,
    getElem?_flatMap_four (fun _ => rfl) _ _ hj, Array.getElem?_toList, hk]
  rfl

/-- **The pointers of a path** lead to the paths that are one bit longer. -/
theorem follow_slotOf {k : Nat} {path : Bits} (hk : lengths.paths.items[k]? = some path)
    (bit : Bool) : lengths.table.follow (slotOf k + bit.toNat) =
      (lengths.paths.ids[path ++ [bit]]?).map slotOf := by
  have hbound : ∀ id, lengths.paths.ids[path ++ [bit]]? = some id → id < 10000 :=
    fun id hid => (lengths.lt_of_ids hid).trans lengths.size_paths_lt
  have hentry : (lengths.nodeWords path)[bit.toNat]? =
      some (childEntry lengths.paths.ids[path ++ [bit]]?) := by
    cases bit <;> rfl
  rw [Table.follow, lengths.getElem?_table hk (by cases bit <;> decide), hentry, Option.bind_some,
    base_table, target?_childEntry hbound]

/-- The slot of a path lies in the decode table. -/
theorem slotOf_lt {id : Nat} (h : id < lengths.paths.items.size) :
    slotOf id < lengths.table.words.size := by
  rw [size_words_table, slotOf]
  omega

/-- The entry for a path leads to a slot of the decode table or nowhere. -/
theorem any_target?_childEntry (path : Bits) :
    (target? 0x1000 (childEntry lengths.paths.ids[path]?)).any
      (fun index => decide (lengths.table.words.size ≤ index)) = false := by
  rw [target?_childEntry fun id hid => (lengths.lt_of_ids hid).trans lengths.size_paths_lt]
  rcases hid : lengths.paths.ids[path]? with _ | id
  · rfl
  · simpa using lengths.slotOf_lt (lengths.lt_of_ids hid)

/-- No entry of the decode table leads out of it. -/
theorem stray?_table : lengths.table.stray? = none := by
  refine List.find?_eq_none.mpr fun entry hentry => ?_
  rw [Bool.not_eq_true, base_table]
  have hmem : entry ∈ lengths.decodeWords := by simpa [table] using hentry
  rw [decodeWords_eq, List.mem_cons, List.mem_flatMap] at hmem
  rcases hmem with rfl | ⟨path, -, hmem⟩
  · -- the first word points at the root
    have hzero := lengths.slotOf_lt
      (Array.getElem?_eq_some_iff.mp lengths.getElem?_paths_zero).1
    rw [target?_pointerTo (by omega), Option.any_some]
    exact decide_eq_false (Nat.not_le.mpr hzero)
  · simp only [nodeWords, List.mem_cons, List.not_mem_nil, or_false] at hmem
    rcases hmem with hleft | hright | hunused | hvalue
    · rw [hleft]
      exact lengths.any_target?_childEntry _
    · rw [hright]
      exact lengths.any_target?_childEntry _
    · rw [hunused]
      rfl
    · -- a value is a byte, and bytes are no pointers
      have hle : entry ≤ 0xFF := by
        rw [hvalue]
        rcases lengths.byteOf[path]? with _ | byte
        · exact UInt32.zero_le
        · exact Table.toUInt32_le byte
      rw [target?, if_pos hle]
      rfl

/-! ### Loading the decode table -/

/-- **Whatever can be reached from the root is the slot of a path.** -/
theorem exists_path {slot : Nat} (h : lengths.table.Reaches (slotOf 0) slot) :
    ∃ k path, lengths.paths.items[k]? = some path ∧ slot = slotOf k := by
  induction h with
  | refl => exact ⟨0, [], lengths.getElem?_paths_zero, rfl⟩
  | tail _ hpoint ih =>
    obtain ⟨k, path, hk, rfl⟩ := ih
    have hstep : ∀ (bit : Bool) (target : Nat),
        lengths.table.follow (slotOf k + bit.toNat) = some target →
        ∃ k' path', lengths.paths.items[k']? = some path' ∧ target = slotOf k' := by
      intro bit target htarget
      rw [lengths.follow_slotOf hk, Option.map_eq_some_iff] at htarget
      obtain ⟨id, hid, rfl⟩ := htarget
      exact ⟨id, _, (lengths.lawful_paths _ id).mp hid, rfl⟩
    rcases hpoint with hleft | hright
    · exact hstep false _ hleft
    · exact hstep true _ hright

/-- A path continues with the next bit of any code it begins. -/
theorem exists_ids {path rest : Bits} {bit : Bool} {b : UInt8}
    (h : path ++ bit :: rest = lengths.word b) :
    ∃ id, lengths.paths.ids[path ++ [bit]]? = some id :=
  lengths.lawful_paths.exists_id (lengths.mem_paths.mpr ⟨b, rest, by simpa using h⟩)

/-- **No path continues a whole code**: it would begin another byte's code. -/
theorem ids_word_eq_none (b : UInt8) (bit : Bool) :
    lengths.paths.ids[lengths.word b ++ [bit]]? = none := by
  refine lengths.lawful_paths.ids_eq_none fun hmem => ?_
  obtain ⟨c, hprefix⟩ := lengths.mem_paths.mp hmem
  obtain rfl := lengths.word_injective_prefix ((List.prefix_append _ _).trans hprefix)
  have := hprefix.length_le
  simp at this

/-- The slot of a path that is a whole code holds the byte with that code. -/
theorem value_word {k : Nat} {b : UInt8} (hk : lengths.paths.items[k]? = some (lengths.word b)) :
    lengths.table.words[slotOf k + 3]? = some b.toUInt32 := by
  rw [lengths.getElem?_table hk (by omega)]
  simp only [nodeWords, List.getElem?_cons_succ, List.getElem?_cons_zero, getElem?_byteOf,
    Option.map_some, Option.getD_some]

/-- Every node that can be reached can be read. -/
theorem readable {slot : Nat} (h : lengths.table.Reaches (slotOf 0) slot) :
    lengths.table.Readable slot := by
  obtain ⟨k, path, hk, rfl⟩ := lengths.exists_path h
  refine ⟨?_, fun hleft hright => ?_⟩
  · have hlt := (Array.getElem?_eq_some_iff.mp hk).1
    rw [size_words_table, slotOf]
    omega
  · obtain ⟨b, rest, hrest⟩ := lengths.mem_paths.mp (Array.mem_of_getElem? hk)
    cases rest with
    | nil =>
      rw [List.append_nil] at hrest
      exact ⟨b, lengths.value_word (hrest ▸ hk)⟩
    | cons bit rest =>
      -- a path that is no whole code goes on
      obtain ⟨id, hid⟩ := lengths.exists_ids hrest
      have hfollow := lengths.follow_slotOf hk bit
      rw [hid, Option.map_some] at hfollow
      cases bit
      · exact absurd (hleft.symm.trans hfollow) (by simp)
      · exact absurd (hright.symm.trans hfollow) (by simp)

/-- **The trie leads along the rest of a code** from the node of the path in front of it. -/
theorem leads {survey : Table.Survey} (hs : Table.Survey.Sound lengths.table (slotOf 0) survey)
    (hsize : survey.nodes.size = survey.slots.items.size) {b : UInt8} {rest : Bits} :
    ∀ {path : Bits} {k id : Nat}, path ++ rest = lengths.word b →
      lengths.paths.items[k]? = some path → survey.slots.items[id]? = some (slotOf k) →
      Trie.Leads ⟨survey.nodes⟩ id rest b := by
  induction rest with
  | nil =>
    intro path k id hpath hk hid
    -- the whole code was followed: no path goes on, so the node is a leaf
    rw [List.append_nil] at hpath
    subst hpath
    obtain ⟨node, hnode, hholds⟩ := hs.exists_node hsize hid
    have hnone : ∀ bit : Bool, lengths.table.follow (slotOf k + bit.toNat) = none := fun bit => by
      rw [lengths.follow_slotOf hk, lengths.ids_word_eq_none, Option.map_none]
    cases node with
    | branch left right => exact absurd ⟨hnone false, hnone true⟩ hholds.1
    | leaf byte =>
      have hvalue := hholds.2.2
      rw [lengths.value_word hk, Option.some.injEq] at hvalue
      obtain rfl : b = byte := by
        have := congrArg UInt32.toUInt8 hvalue
        simpa using this
      exact hnode
  | cons bit rest ih =>
    -- the path goes on with `bit`, so the node is a branch with a child on that side
    intro path k id hpath hk hid
    obtain ⟨node, hnode, hholds⟩ := hs.exists_node hsize hid
    obtain ⟨next, hnext⟩ := lengths.exists_ids hpath
    have hfollow := lengths.follow_slotOf hk bit
    rw [hnext, Option.map_some] at hfollow
    have hlead : ∀ child, survey.slots.items[child]? = some (slotOf next) →
        Trie.Leads ⟨survey.nodes⟩ child rest b := fun child hchild =>
      ih (by simpa using hpath) ((lengths.lawful_paths _ _).mp hnext) hchild
    cases node with
    | leaf byte =>
      cases bit
      · exact absurd (hholds.1.symm.trans hfollow) (by simp)
      · exact absurd (hholds.2.1.symm.trans hfollow) (by simp)
    | branch left right =>
      have hstands : Table.Stands survey.slots (if bit then right else left)
          (lengths.table.follow (slotOf k + bit.toNat)) := by
        cases bit
        · exact hholds.2.1
        · exact hholds.2.2
      rw [hfollow] at hstands
      have hchild? : Trie.child? ⟨survey.nodes⟩ id bit = if bit then right else left := by
        simp [Trie.child?, Trie.node?, hnode]
      rcases hside : (if bit then right else left) with _ | child
      · rw [hside] at hstands
        cases hstands
      · rw [hside] at hstands hchild?
        cases hstands with
        | some hchild => exact ⟨child, hchild?, hlead child hchild⟩

/-! ### The book -/

@[simp] theorem entry_encoder (b : UInt8) : lengths.encoder.entry b = lengths.entry b :=
  Encoder.entry_ofFn _ b

/-- No code has more than 32 bits. -/
theorem bits_entry_le (b : UInt8) : (lengths.encoder.entry b).bits ≤ 32 := by
  rw [entry_encoder]
  exact lengths.length_le b

theorem toNat_word_lt (b : UInt8) : Bits.toNat (lengths.word b) < 2 ^ lengths.length b := by
  have hlt := Bits.toNat_lt (lengths.word b)
  rwa [Nat.shiftLeft_eq, Nat.one_mul, length_word] at hlt

/-- **The pattern of a code** has its bits, the first one lowest; 32 bits hold it. -/
theorem toNat_pattern (b : UInt8) :
    (lengths.entry b).pattern.toNat = Bits.toNat (lengths.word b) := by
  have hwide := Nat.pow_le_pow_right (n := 2) (by omega) (lengths.length_le b)
  rw [entry, Nat.toUInt32_eq, UInt32.toNat_ofNat']
  exact Nat.mod_eq_of_lt ((lengths.toNat_word_lt b).trans_le hwide)

/-- The encoder has the codes of the bytes. -/
theorem word_entry (b : UInt8) : (lengths.entry b).word = lengths.word b := by
  rw [Entry.word, toNat_pattern]
  exact (congrArg (Bits.ofNat · _) (lengths.length_word b).symm).trans (Bits.ofNat_toNat _)

/-- **The resources of any code lengths load**: the trie is a copy of the decode table. -/
theorem exists_survey : ∃ survey : Table.Survey,
    lengths.book = .ok ⟨lengths.encoder, ⟨survey.nodes⟩⟩ ∧
      Table.Survey.Sound lengths.table (slotOf 0) survey ∧
      survey.nodes.size = survey.slots.items.size := by
  have hencode : Encoder.ofWords lengths.encodeWords.toArray = .ok lengths.encoder :=
    Encoder.ofWords_toWords lengths.bits_entry_le
  have hfirst : lengths.decodeWords.toArray[0]? = some (pointerTo 0) := rfl
  have hroot : target? 0x1000 (pointerTo 0) = some (slotOf 0) := target?_pointerTo (by omega)
  obtain ⟨survey, hdecode, hsound, hsize⟩ := Trie.ofWords_eq_ok hfirst lengths.stray?_table hroot
    fun _ => lengths.readable
  refine ⟨survey, ?_, hsound, hsize⟩
  rw [book, Book.ofWords, hencode, hdecode]
  rfl

/-- Such a trie leads along every code to its byte. -/
theorem faithful_of_survey {survey : Table.Survey}
    (hs : Table.Survey.Sound lengths.table (slotOf 0) survey)
    (hsize : survey.nodes.size = survey.slots.items.size) :
    Book.Faithful ⟨lengths.encoder, ⟨survey.nodes⟩⟩ := by
  intro b
  rw [entry_encoder, word_entry]
  refine ⟨fun hnil => ?_, ?_⟩
  · have hpos := lengths.length_pos b
    rw [← length_word, hnil] at hpos
    simp at hpos
  · exact lengths.leads hs hsize (List.nil_append _) lengths.getElem?_paths_zero hs.rooted

/-- **The book of any code lengths** is faithful. -/
theorem exists_book : ∃ book, lengths.book = .ok book ∧ book.encoder = lengths.encoder ∧
    book.Faithful := by
  obtain ⟨survey, hbook, hsound, hsize⟩ := lengths.exists_survey
  exact ⟨_, hbook, rfl, lengths.faithful_of_survey hsound hsize⟩

end Lengths

end Code

end ZoneRelay
