import Mathlib.Data.List.Permutation
import ZoneRelay.Proofs.Code.Reading

/-!
# The loaded trie is the table

The words of a decode resource are a graph: an entry is a pointer to a slot, a slot is a node.
Any array of words is such a graph – nodes may be shared, overlap each other or lie in cycles, and
pointers are subtracted in wrapping arithmetic. Loading copies the part that can be reached from
the root into an array of nodes. This file says that **nothing is lost and nothing is added**
(`ZoneRelay.Code.loading_copies`).

* **Loading ends.** Every slot that is read is a word of its own with another word behind it, so
  there are fewer of them than words (`ZoneRelay.Code.Table.Survey.Checked.size_lt`); more rounds
  than words change nothing (`ZoneRelay.Code.Table.explore_add`).
* **Loading fails only for cause.** What was explored without a fault could be read, slot by slot
  (`ZoneRelay.Code.Table.Survey.Checked.explore`), and in the end this is everything that can be
  reached (`ZoneRelay.Code.Table.Survey.Sound.mem_of_reaches`).
* **The trie is a copy.** Each node comes from a slot of its own, and leads where its slot does
  (`ZoneRelay.Code.Trie.Copies`). So bits that are followed in the trie and bits that are followed
  in the words come to the same place (`ZoneRelay.Code.Trie.Copies.place_eq`).

The first word points at the root, and pointers are counted from that word less four, so the root
is always in slot `1` (`ZoneRelay.Code.target?_first`).
-/

namespace ZoneRelay

namespace Code

/-! ### Entries -/

/-- **The root is in slot `1`**, whatever address the first word has. -/
theorem target?_first {first : UInt32} (h : 0xFF < first) : target? (first - 4) first = some 1 := by
  have hfour : first - (first - 4) = 4 := by
    rw [UInt32.sub_eq_add_neg first, UInt32.neg_sub, UInt32.add_comm, UInt32.sub_add_cancel]
  rw [target?, if_neg (UInt32.not_le.mpr h), hfour]
  rfl

theorem target?_eq_some_iff {base entry : UInt32} {index : Nat} :
    target? base entry = some index ↔ 0xFF < entry ∧ ((entry - base) / 4).toNat = index := by
  rw [target?]
  split
  · rename_i hle
    constructor
    · intro h
      cases h
    · rintro ⟨hlt, -⟩
      exact absurd hlt (UInt32.not_lt.mpr hle)
  · rename_i hlt
    rw [Option.some.injEq]
    exact ⟨fun h => ⟨UInt32.not_le.mp hlt, h⟩, fun h => h.2⟩

namespace Table

variable {table : Table} {root : Nat}

/-- No entry leads out of the table when every pointer in it leads into it. -/
theorem stray?_eq_none_iff : table.stray? = none ↔
    ∀ entry ∈ table.words, 0xFF < entry →
      ((entry - table.base) / 4).toNat < table.words.size := by
  simp only [stray?, List.find?_eq_none, Array.mem_toList_iff]
  refine forall₂_congr fun entry _ => ?_
  rw [Bool.not_eq_true, Option.any_eq_false]
  constructor
  · intro h hlt
    have := h _ (target?_eq_some_iff.mpr ⟨hlt, rfl⟩)
    simpa using this
  · intro h index hindex
    obtain ⟨hlt, rfl⟩ := target?_eq_some_iff.mp hindex
    simpa using h hlt

/-! ### Reading that did not fail -/

/-- **A node that was read could be read**: nothing else passes the checks. -/
theorem readable_of_readNode {slots after : Numbering Nat} {slot : Nat} {node : Node}
    (h : table.readNode slots slot = .ok (node, after)) : table.Readable slot := by
  rw [readNode] at h
  split at h
  · cases h
  · rename_i hin
    refine ⟨Nat.not_le.mp hin, fun hleft hright => ?_⟩
    simp only [hleft, hright] at h
    rcases hvalue : table.words[slot + 3]? with _ | value
    · simp only [hvalue] at h
      cases h
    · simp only [hvalue] at h
      split at h
      · rename_i hle
        refine ⟨value.toUInt8, congrArg some (UInt32.toNat_inj.mp ?_)⟩
        rw [UInt32.le_iff_toNat_le] at hle
        rw [UInt8.toNat_toUInt32, UInt32.toNat_toUInt8]
        exact (Nat.mod_eq_of_lt (Nat.lt_succ_of_le hle)).symm
      · cases h

/-- **The invariant of an exploration that does not fail**: what it has read could be read. -/
structure Survey.Checked (table : Table) (root : Nat) (survey : Survey) : Prop
    extends Survey.Sound table root survey where
  readable : ∀ (id slot : Nat), id < survey.nodes.size → survey.slots.items[id]? = some slot →
    table.Readable slot

/-- Nothing read yet, and only the root met. -/
def Survey.start (root : Nat) : Survey := ⟨(Numbering.empty.meet root).2, #[]⟩

theorem Survey.checked_start (table : Table) (root : Nat) :
    Survey.Checked table root (.start root) where
  toSound := sound_start table root
  readable _ _ hid _ := absurd hid (Nat.not_lt_zero _)

/-- Reading the next slot without a fault keeps the invariant. -/
theorem Survey.Checked.push {survey : Survey} {slot : Nat} {node : Node} {after : Numbering Nat}
    (h : Survey.Checked table root survey)
    (hslot : survey.slots.items[survey.nodes.size]? = some slot)
    (hread : table.readNode survey.slots slot = .ok (node, after)) :
    Survey.Checked table root ⟨after, survey.nodes.push node⟩ := by
  have hreadable := readable_of_readNode hread
  obtain ⟨node', after', hread', hnode, hgrow⟩ := hreadable.readNode h.lawful
  obtain ⟨rfl, rfl⟩ := Prod.mk.inj (Except.ok.inj (hread.symm.trans hread'))
  refine ⟨h.toSound.push hslot hnode hgrow, fun id other hid hother => ?_⟩
  rw [Array.size_push] at hid
  rcases Nat.lt_succ_iff_lt_or_eq.mp hid with hlt | rfl
  · -- an older node: its slot kept its number
    have hold := Array.getElem?_eq_getElem (Nat.lt_of_lt_of_le hlt h.behind)
    obtain rfl := Option.some.inj ((hgrow.keeps _ _ hold).symm.trans hother)
    exact h.readable id _ hlt hold
  · obtain rfl := Option.some.inj ((hgrow.keeps _ _ hslot).symm.trans hother)
    exact hreadable

/-- **There are fewer nodes than words**: the slots read are distinct, and each has a word
behind it. -/
theorem Survey.Checked.size_lt {survey : Survey} (h : Survey.Checked table root survey)
    (hpos : 0 < table.words.size) : survey.nodes.size < table.words.size := by
  have hread : (survey.slots.items.toList.take survey.nodes.size) ⊆
      List.range (table.words.size - 1) := by
    intro slot hmem
    obtain ⟨id, hid, hslot⟩ := List.mem_take_iff_getElem.mp hmem
    have hbound := Nat.lt_min.mp hid
    have hsome : survey.slots.items[id]? = some slot := by
      rw [← hslot, ← Array.getElem?_toList]
      exact List.getElem?_eq_getElem hbound.2
    have hin := (h.readable id slot hbound.1 hsome).inside
    exact List.mem_range.mpr (by omega)
  have hdistinct := h.lawful.nodup.sublist (List.take_sublist survey.nodes.size _)
  have hlen := (List.subperm_of_subset hdistinct hread).length_le
  have hbehind := h.behind
  rw [List.length_range, List.length_take, Array.length_toList] at hlen
  omega

/-- **An exploration that ends without a fault** has read every slot it met, and could read it. -/
theorem Survey.Checked.explore {survey final : Survey} {rounds : Nat}
    (h : Survey.Checked table root survey) (hpos : 0 < table.words.size)
    (hrounds : table.words.size ≤ rounds + survey.nodes.size)
    (hrun : table.explore rounds survey = .ok final) :
    Survey.Checked table root final ∧ final.nodes.size = final.slots.items.size := by
  induction rounds generalizing survey with
  | zero =>
    have hsize := h.size_lt hpos
    omega
  | succ rounds ih =>
    rw [Table.explore] at hrun
    rcases hslot : survey.slots.items[survey.nodes.size]? with _ | slot
    · simp only [hslot, Except.ok.injEq] at hrun
      subst hrun
      exact ⟨h, Nat.le_antisymm h.behind (Array.getElem?_eq_none_iff.mp hslot)⟩
    · rcases hread : table.readNode survey.slots slot with fault | ⟨node, after⟩
      · simp only [hslot, hread] at hrun
        cases hrun
      · simp only [hslot, hread] at hrun
        refine ih (h.push hslot hread) ?_ hrun
        rw [Array.size_push]
        omega

/-- **More rounds than words change nothing**: the exploration has ended by then. -/
theorem explore_add {survey : Survey} {rounds : Nat} (h : Survey.Checked table root survey)
    (hpos : 0 < table.words.size) (hrounds : table.words.size ≤ rounds + survey.nodes.size)
    (more : Nat) : table.explore (rounds + more) survey = table.explore rounds survey := by
  induction rounds generalizing survey with
  | zero =>
    have hsize := h.size_lt hpos
    omega
  | succ rounds ih =>
    rw [Nat.succ_add, Table.explore, Table.explore]
    rcases hslot : survey.slots.items[survey.nodes.size]? with _ | slot
    · rfl
    · rcases hread : table.readNode survey.slots slot with fault | ⟨node, after⟩
      · simp only [hread]
      · simp only [hread]
        refine ih (h.push hslot hread) ?_
        rw [Array.size_push]
        omega

/-! ### Everything that can be reached -/

/-- What a slot that was read points at was met. -/
theorem Holds.mem_of_points {slots : Numbering Nat} {slot target : Nat} {node : Node}
    (h : table.Holds slots slot node) (hpoint : table.Points slot target) :
    target ∈ slots.items := by
  have hmem : ∀ {id? : Option Nat}, Stands slots id? (some target) → target ∈ slots.items := by
    intro id? hid
    cases hid with
    | some hid => exact Array.mem_of_getElem? hid
  cases node with
  | leaf byte =>
    rcases hpoint with hleft | hright
    · exact absurd (h.1.symm.trans hleft) nofun
    · exact absurd (h.2.1.symm.trans hright) nofun
  | branch left right =>
    rcases hpoint with hleft | hright
    · exact hmem (hleft ▸ h.2.1)
    · exact hmem (hright ▸ h.2.2)

/-- **Whatever can be reached was met**, when every slot that was met has been read. -/
theorem Survey.Sound.mem_of_reaches {survey : Survey} (h : Survey.Sound table root survey)
    (hsize : survey.nodes.size = survey.slots.items.size) {slot : Nat}
    (hreach : table.Reaches root slot) : slot ∈ survey.slots.items := by
  induction hreach with
  | refl => exact Array.mem_of_getElem? h.rooted
  | tail _ hpoint ih =>
    obtain ⟨id, hid⟩ := Array.mem_iff_getElem?.mp ih
    obtain ⟨node, -, hholds⟩ := h.exists_node hsize hid
    exact hholds.mem_of_points hpoint

/-! ### Following bits in the words -/

/-- The slot that bits lead to, pointer after pointer. -/
def descend? (table : Table) : (slot : Nat) → Bits → Option Nat
  | slot, [] => some slot
  | slot, bit :: rest =>
    (table.follow (slot + bit.toNat)).bind fun target => table.descend? target rest

end Table

/-- Where bits lead. -/
inductive Place where
  /-- To the end of a code. -/
  | leaf (byte : UInt8)
  /-- To a node that leads on. -/
  | branch
  /-- Nowhere: some bit on the way had no child. -/
  | nowhere
  deriving DecidableEq

/-- Where bits lead from a slot of a table: a slot without pointers is the end of a code. -/
def Table.place (table : Table) (slot : Nat) (path : Bits) : Place :=
  match table.descend? slot path with
  | none => .nowhere
  | some last =>
    if table.follow last = none ∧ table.follow (last + 1) = none then
      .leaf (table.words.getD (last + 3) 0).toUInt8
    else .branch

/-- Where bits lead from a node of a trie. -/
def Trie.place (trie : Trie) (id : Nat) (path : Bits) : Place :=
  match (trie.descend? id path).bind trie.node? with
  | none => .nowhere
  | some (.leaf byte) => .leaf byte
  | some (.branch _ _) => .branch

/-! ### Copies -/

/-- **A trie is closed** when every child is a node of it. -/
def Trie.Closed (trie : Trie) : Prop :=
  ∀ id bit child, trie.child? id bit = some child → child < trie.size

/-- **A trie is a copy of what a table holds behind a root**: its nodes come from the slots that
can be reached, each from one of its own, leaves from slots without pointers and with their byte,
branches from slots whose pointers lead where the children come from. -/
structure Trie.Copies (trie : Trie) (table : Table) (root : Nat) (slot : Nat → Nat) : Prop where
  rooted : slot 0 = root
  injective : ∀ id id', id < trie.size → id' < trie.size → slot id = slot id' → id = id'
  covers : ∀ target, table.Reaches root target ↔ ∃ id, id < trie.size ∧ slot id = target
  leaf : ∀ id byte, trie.node? id = some (.leaf byte) →
    table.follow (slot id) = none ∧ table.follow (slot id + 1) = none ∧
      table.words[slot id + 3]? = some byte.toUInt32
  branch : ∀ id left right, trie.node? id = some (.branch left right) →
    ¬(table.follow (slot id) = none ∧ table.follow (slot id + 1) = none) ∧
      left.map slot = table.follow (slot id) ∧ right.map slot = table.follow (slot id + 1)
  inside : trie.Closed

/-- A number stands for the slot it was given to. -/
theorem Table.Stands.map_eq {slots : Numbering Nat} {id? slot? : Option Nat}
    (h : Table.Stands slots id? slot?) : id?.map (fun id => slots.items.getD id 0) = slot? := by
  cases h with
  | none => rfl
  | some hid => rw [Option.map_some, Array.getD_eq_getD_getElem?, hid, Option.getD_some]

/-- A number that stands for a slot was given. -/
theorem Table.Stands.lt_size {slots : Numbering Nat} {id : Nat} {slot? : Option Nat}
    (h : Table.Stands slots (some id) slot?) : id < slots.items.size := by
  cases h with
  | some hid => exact (Array.getElem?_eq_some_iff.mp hid).1

namespace Table.Survey.Sound

variable {table : Table} {root : Nat} {survey : Table.Survey}

/-- Once every slot that was met has been read, each node has a slot. -/
theorem getElem?_slot (hsize : survey.nodes.size = survey.slots.items.size) {id : Nat}
    (hid : id < survey.nodes.size) :
    survey.slots.items[id]? = some (survey.slots.items.getD id 0) := by
  have hsome := Array.getElem?_eq_getElem (hsize ▸ hid : id < survey.slots.items.size)
  rw [Array.getD_eq_getD_getElem?, hsome, Option.getD_some]

/-- A node that was read is what its slot holds. -/
theorem holds_slot (h : Survey.Sound table root survey)
    (hsize : survey.nodes.size = survey.slots.items.size) {id : Nat} {node : Node}
    (hnode : survey.nodes[id]? = some node) :
    table.Holds survey.slots (survey.slots.items.getD id 0) node :=
  h.holds _ _ _ (getElem?_slot hsize (Array.getElem?_eq_some_iff.mp hnode).1) hnode

/-- The children of a node were met, and so they have been read. -/
theorem closed (h : Survey.Sound table root survey)
    (hsize : survey.nodes.size = survey.slots.items.size) : Trie.Closed ⟨survey.nodes⟩ := by
  intro id bit child hchild
  change child < survey.nodes.size
  rcases hnode : survey.nodes[id]? with _ | ⟨left, right⟩ | byte
  · simp [Trie.child?, Trie.node?, hnode] at hchild
  · obtain ⟨-, hleft, hright⟩ := h.holds_slot hsize hnode
    have hside : (if bit then right else left) = some child := by
      simpa [Trie.child?, Trie.node?, hnode] using hchild
    rw [hsize]
    cases bit with
    | false =>
      obtain rfl : left = some child := hside
      exact hleft.lt_size
    | true =>
      obtain rfl : right = some child := hside
      exact hright.lt_size
  · simp [Trie.child?, Trie.node?, hnode] at hchild

/-- **The nodes read are a copy**, once every slot that was met has been read. -/
theorem copies (h : Survey.Sound table root survey)
    (hsize : survey.nodes.size = survey.slots.items.size) :
    Trie.Copies ⟨survey.nodes⟩ table root fun id => survey.slots.items.getD id 0 where
  rooted := by rw [Array.getD_eq_getD_getElem?, h.rooted, Option.getD_some]
  injective := by
    intro id id' hid hid' heq
    exact h.lawful.id_unique (getElem?_slot hsize hid) (heq ▸ getElem?_slot hsize hid')
  covers := by
    intro target
    constructor
    · intro hreach
      obtain ⟨id, hid⟩ := Array.mem_iff_getElem?.mp (h.mem_of_reaches hsize hreach)
      have hlt : id < survey.slots.items.size := (Array.getElem?_eq_some_iff.mp hid).1
      refine ⟨id, hlt.trans_eq hsize.symm, ?_⟩
      rw [Array.getD_eq_getD_getElem?, hid, Option.getD_some]
    · rintro ⟨id, hid, rfl⟩
      exact h.reached _ (Array.mem_of_getElem? (getElem?_slot hsize hid))
  leaf := fun _ _ hnode => h.holds_slot hsize hnode
  branch := by
    intro id left right hnode
    obtain ⟨hinner, hleft, hright⟩ := h.holds_slot hsize hnode
    exact ⟨hinner, hleft.map_eq, hright.map_eq⟩
  inside := h.closed hsize

end Table.Survey.Sound

namespace Trie

/-- Every number below the size has a node. -/
theorem exists_node? {trie : Trie} {id : Nat} (h : id < trie.size) :
    ∃ node, trie.node? id = some node :=
  ⟨_, Array.getElem?_eq_getElem h⟩

namespace Copies

variable {trie : Trie} {table : Table} {root : Nat} {slot : Nat → Nat}

/-- **One bit leads to the same place** in the trie and in the words. -/
theorem map_child? (h : trie.Copies table root slot) {id : Nat} (hid : id < trie.size)
    (bit : Bool) : (trie.child? id bit).map slot = table.follow (slot id + bit.toNat) := by
  obtain ⟨⟨left, right⟩ | byte, hnode⟩ := exists_node? hid
  · obtain ⟨-, hleft, hright⟩ := h.branch id left right hnode
    cases bit with
    | false => simpa [child?, hnode] using hleft
    | true => simpa [child?, hnode] using hright
  · obtain ⟨hleft, hright, -⟩ := h.leaf id byte hnode
    cases bit with
    | false => simpa [child?, hnode] using hleft.symm
    | true => simpa [child?, hnode] using hright.symm

/-- Bits lead to nodes of the trie. -/
theorem descend?_lt (h : trie.Copies table root slot) {id last : Nat} {path : Bits}
    (hid : id < trie.size) (hlast : trie.descend? id path = some last) : last < trie.size := by
  induction path generalizing id with
  | nil =>
    cases hlast
    exact hid
  | cons bit rest ih =>
    obtain ⟨child, hchild, hlast⟩ := Option.bind_eq_some_iff.mp hlast
    exact ih (h.inside id bit child hchild) hlast

/-- **Bits lead to the same slot**, followed in the trie or in the words. -/
theorem map_descend? (h : trie.Copies table root slot) {id : Nat} (hid : id < trie.size)
    (path : Bits) : (trie.descend? id path).map slot = table.descend? (slot id) path := by
  induction path generalizing id with
  | nil => rfl
  | cons bit rest ih =>
    rw [descend?, Table.descend?, ← h.map_child? hid]
    rcases hchild : trie.child? id bit with _ | child
    · rfl
    · exact ih (h.inside id bit child hchild)

/-- **Bits lead to the same place**: to the same byte, on to more bits, or nowhere. -/
theorem place_eq (h : trie.Copies table root slot) {id : Nat} (hid : id < trie.size)
    (path : Bits) : trie.place id path = table.place (slot id) path := by
  rw [place, Table.place, ← h.map_descend? hid]
  rcases hlast : trie.descend? id path with _ | last
  · rfl
  · obtain ⟨⟨left, right⟩ | byte, hnode⟩ := exists_node? (h.descend?_lt hid hlast)
    · simp only [Option.bind_some, Option.map_some, hnode]
      rw [if_neg (h.branch last left right hnode).1]
    · obtain ⟨hleft, hright, hvalue⟩ := h.leaf last byte hnode
      simp only [Option.bind_some, Option.map_some, hnode]
      rw [if_pos ⟨hleft, hright⟩, Array.getD_eq_getD_getElem?, hvalue, Option.getD_some,
        UInt8.toUInt8_toUInt32]

end Copies

/-! ### Loading -/

open Table in
/-- **What was loaded passed every check**, and is what was explored. -/
theorem exists_survey_of_ofWords {words : Array UInt32} {first : UInt32} {trie : Trie}
    (hfirst : words[0]? = some first) (h : Trie.ofWords words = .ok trie) :
    0xFF < first ∧ (Table.mk words (first - 4)).stray? = none ∧
      ∃ survey, trie = ⟨survey.nodes⟩ ∧ Survey.Checked ⟨words, first - 4⟩ 1 survey ∧
        survey.nodes.size = survey.slots.items.size := by
  have hpos : 0 < words.size := (Array.getElem?_eq_some_iff.mp hfirst).1
  rw [ofWords, hfirst] at h
  rcases hstray : (Table.mk words (first - 4)).stray? with _ | entry
  · rcases hroot : target? (first - 4) first with _ | root
    · simp only [hstray, hroot] at h
      cases h
    · have hlt : 0xFF < first := (target?_eq_some_iff.mp hroot).1
      obtain rfl := Option.some.inj ((target?_first hlt).symm.trans hroot)
      simp only [hstray, hroot] at h
      rcases hrun : (Table.mk words (first - 4)).explore words.size (.start 1) with fault | survey
      · rw [Survey.start] at hrun
        rw [hrun] at h
        cases h
      · obtain ⟨hchecked, hsize⟩ :=
          (Survey.checked_start _ 1).explore hpos (Nat.le_add_right _ _) hrun
        rw [Survey.start] at hrun
        rw [hrun] at h
        cases h
        exact ⟨hlt, rfl, survey, rfl, hchecked, hsize⟩
  · simp only [hstray] at h
    cases h

/-! ### Walks stay inside -/

/-- **A walk in a closed trie never leaves it.** -/
theorem Closed.stuck_ne {trie : Trie} (h : trie.Closed) (room node i : Nat) (bits : Bits)
    (id : Nat) : (trie.walk room node i bits).stuck ≠ some (.outsideTrie id) := by
  induction bits generalizing room node i with
  | nil => cases room <;> nofun
  | cons bit rest ih =>
    rcases room with _ | room
    · nofun
    · rcases hchild : trie.child? node bit with _ | child
      · simp [walk, hchild]
      · obtain ⟨⟨left, right⟩ | byte, hnode⟩ := exists_node? (h node bit child hchild)
        · simpa [walk, hchild, hnode] using ih (room + 1) child (i + 1)
        · simpa [walk, hchild, hnode] using ih room 0 (i + 1)

end Trie

/-- **No stream leads out of a closed trie.** -/
theorem Trie.Closed.decompress_ne_outsideTrie {book : Book} (h : book.trie.Closed)
    (input buffer : Bytes) (bitCount : UInt32) (id : Nat) :
    (book.decompress input bitCount buffer).1 ≠ .error (.corruptStream (.outsideTrie id)) := by
  rw [Book.decompress]
  by_cases hform : Opens input bitCount
  · rw [hform.dataBits_eq]
    generalize ((Bits.ofBytes input).take bitCount.toNat).drop 8 = bits
    have hstuck := h.stuck_ne buffer.length 0 0 bits id
    rcases hcause : (book.trie.walk buffer.length 0 0 bits).stuck with _ | cause
    · simp [hcause]
    · rw [hcause] at hstuck
      simpa [hcause] using hstuck
  · -- the checks in front have faults of their own
    rcases dataBits_error hform with herror | ⟨cause, herror, hne⟩
    · rw [herror]
      simp
    · rw [herror]
      simpa using hne id

namespace Trie

/-- A loaded trie is closed. -/
theorem closed_of_ofWords {words : Array UInt32} {trie : Trie} (h : ofWords words = .ok trie) :
    trie.Closed := by
  rcases hfirst : words[0]? with _ | first
  · rw [ofWords, hfirst] at h
    cases h
  · obtain ⟨-, -, survey, rfl, hchecked, hsize⟩ := exists_survey_of_ofWords hfirst h
    exact (hchecked.copies hsize).inside

end Trie

/-- **A loaded trie is the part of the table that can be reached.** For any array of words:

* loading succeeds if and only if there is a first word, it is a pointer, no pointer of the array
  leads out of it, and every slot that can be reached from slot `1` – the root, where the first
  word leads – has its right entry in the array and, if neither entry is a pointer, a byte two
  words further;
* loading ends: more rounds than there are words change nothing;
* the trie is a copy of the slots that can be reached, one node for each, so that any bits lead to
  the same slot and to the same place whether they are followed in the trie or in the words; there
  are no more nodes than words; and no stream is ever refused for leading out of the trie. -/
theorem loading_copies (words : Array UInt32) :
    ((∃ trie, Trie.ofWords words = .ok trie) ↔
      ∃ first, words[0]? = some first ∧ 0xFF < first ∧
        (∀ entry ∈ words, 0xFF < entry → ((entry - (first - 4)) / 4).toNat < words.size) ∧
        ∀ slot, (Table.mk words (first - 4)).Reaches 1 slot →
          (Table.mk words (first - 4)).Readable slot) ∧
    ∀ first, words[0]? = some first →
      (0xFF < first → target? (first - 4) first = some 1) ∧
      (∀ rounds, words.size ≤ rounds →
        (Table.mk words (first - 4)).explore rounds (.start 1) =
          (Table.mk words (first - 4)).explore words.size (.start 1)) ∧
      ∀ trie, Trie.ofWords words = .ok trie →
        (∃ slot, trie.Copies ⟨words, first - 4⟩ 1 slot ∧
          ∀ path, (trie.descend? 0 path).map slot =
              (Table.mk words (first - 4)).descend? 1 path ∧
            trie.place 0 path = (Table.mk words (first - 4)).place 1 path) ∧
        trie.size ≤ words.size ∧
        ∀ encoder input bitCount buffer id,
          ((Book.mk encoder trie).decompress input bitCount buffer).1 ≠
            .error (.corruptStream (.outsideTrie id)) := by
  refine ⟨⟨?_, ?_⟩, fun first hfirst => ⟨target?_first, ?_, fun trie htrie => ?_⟩⟩
  · rintro ⟨trie, htrie⟩
    rcases hfirst : words[0]? with _ | first
    · rw [Trie.ofWords, hfirst] at htrie
      cases htrie
    · obtain ⟨hlt, hstray, survey, rfl, hchecked, hsize⟩ :=
        Trie.exists_survey_of_ofWords hfirst htrie
      refine ⟨first, rfl, hlt, Table.stray?_eq_none_iff.mp hstray, fun slot hreach => ?_⟩
      obtain ⟨id, hid⟩ := Array.mem_iff_getElem?.mp (hchecked.mem_of_reaches hsize hreach)
      exact hchecked.readable id slot (hsize ▸ (Array.getElem?_eq_some_iff.mp hid).1) hid
  · rintro ⟨first, hfirst, hlt, hinside, hread⟩
    obtain ⟨survey, hload, -⟩ := Trie.ofWords_eq_ok hfirst
      (Table.stray?_eq_none_iff.mpr hinside) (target?_first hlt) hread
    exact ⟨_, hload⟩
  · intro rounds hrounds
    obtain ⟨more, rfl⟩ := Nat.exists_eq_add_of_le hrounds
    exact Table.explore_add (Table.Survey.checked_start _ 1)
      (Array.getElem?_eq_some_iff.mp hfirst).1 (Nat.le_add_right _ _) more
  · obtain ⟨-, -, survey, rfl, hchecked, hsize⟩ := Trie.exists_survey_of_ofWords hfirst htrie
    have hcopies := hchecked.copies hsize
    have hroot : 0 < Trie.size ⟨survey.nodes⟩ :=
      lt_of_lt_of_eq (Array.getElem?_eq_some_iff.mp hchecked.rooted).1 hsize.symm
    refine ⟨⟨_, hcopies, fun path => ?_⟩, ?_, fun encoder input bitCount buffer id => ?_⟩
    · rw [← hcopies.rooted]
      exact ⟨hcopies.map_descend? hroot path, hcopies.place_eq hroot path⟩
    · exact (hchecked.size_lt (Array.getElem?_eq_some_iff.mp hfirst).1).le
    · have hclosed : (Book.mk encoder ⟨survey.nodes⟩).trie.Closed := hcopies.inside
      exact hclosed.decompress_ne_outsideTrie input buffer bitCount id

/-- A table with a cycle and two nodes that overlap: the left entry of the root points back at the
root, its right entry at the root's own last word. However often bit 0 is taken, it stays at the
root. -/
theorem loading_copies_cycle :
    let words : Array UInt32 := #[0x1004, 0x1004, 0x1010, 0, 0, 0, 0, 0x41]
    let trie : Trie := ⟨#[.branch (some 0) (some 1), .leaf 0x41]⟩
    words[0]? = some 0x1004 ∧ Trie.ofWords words = .ok trie ∧
      (∃ slot, trie.Copies ⟨words, 0x1000⟩ 1 slot) ∧
      trie.place 0 [false, false, true] = .leaf 0x41 ∧
      (Table.mk words 0x1000).place 1 [false, false, true] = .leaf 0x41 := by
  intro words trie
  have hload : Trie.ofWords words = .ok trie := by cbv
  obtain ⟨⟨slot, hcopies, hplace⟩, -⟩ := ((loading_copies words).2 0x1004 rfl).2.2 trie hload
  have hleaf : trie.place 0 [false, false, true] = .leaf 0x41 := rfl
  exact ⟨rfl, hload, ⟨slot, hcopies⟩, hleaf, (hplace _).2.symm.trans hleaf⟩

end Code

end ZoneRelay
