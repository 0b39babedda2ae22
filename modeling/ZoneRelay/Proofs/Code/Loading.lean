import Mathlib.Data.List.Perm.Subperm
import Mathlib.Logic.Relation
import ZoneRelay.Code.Trie
import ZoneRelay.Proofs.Code.Numbering

/-!
# Loading a decode table

A decode table is a graph on the words of an array: the node in a slot points at the slots
its two entries lead to (`ZoneRelay.Code.Table.Points`). Loading explores that graph from
the root and copies every node it meets, its pointers replaced by numbers. This file says
when it succeeds and what the copy is.

* **It succeeds when every node that can be reached can be read**
  (`ZoneRelay.Code.Trie.ofWords_eq_ok`): its right entry lies in the table, and if it points
  nowhere it holds a byte (`ZoneRelay.Code.Table.Readable`).
* **The copy is faithful** (`ZoneRelay.Code.Table.Survey.Sound`): the slots met are numbered
  without repetition, all of them can be reached, and node `k` of the copy is what the table
  holds in the slot numbered `k` (`ZoneRelay.Code.Table.Holds`).

Exploring takes as many rounds as the table has words, and each round copies one more node;
as the slots met are distinct words of the table, all of them are copied when the rounds
are over. That count is the only place where the number of rounds matters.
-/

namespace ZoneRelay

namespace Code

namespace Table

/-! ### The graph of a table -/

/-- The node in a slot has an entry that points at the target. -/
def Points (table : Table) (slot target : Nat) : Prop :=
  table.follow slot = some target ∨ table.follow (slot + 1) = some target

/-- A chain of pointers leads from one slot to another. -/
abbrev Reaches (table : Table) : Nat → Nat → Prop := Relation.ReflTransGen table.Points

/-- **What reading a node asks for**: its right entry is a word of the table, and a node
that points nowhere holds a byte. -/
structure Readable (table : Table) (slot : Nat) : Prop where
  inside : slot + 1 < table.words.size
  value : table.follow slot = none → table.follow (slot + 1) = none →
    ∃ byte : UInt8, table.words[slot + 3]? = some byte.toUInt32

/-- A number that is given, or none, stands for the slot pointed at, or none. -/
abbrev Stands (slots : Numbering Nat) : Option Nat → Option Nat → Prop :=
  Option.Rel fun id slot => slots.items[id]? = some slot

/-- **The table holds a node in a slot**: a leaf where no entry points anywhere and the
value is its byte, a branch where some entry points somewhere and its children are the
numbers of the slots pointed at. -/
def Holds (table : Table) (slots : Numbering Nat) (slot : Nat) : Node → Prop
  | .leaf byte =>
    table.follow slot = none ∧ table.follow (slot + 1) = none ∧
      table.words[slot + 3]? = some byte.toUInt32
  | .branch left right =>
    ¬(table.follow slot = none ∧ table.follow (slot + 1) = none) ∧
      Stands slots left (table.follow slot) ∧ Stands slots right (table.follow (slot + 1))

theorem Stands.mono {before after : Numbering Nat} (h : before.Extends after)
    {id? slot? : Option Nat} (hs : Stands before id? slot?) : Stands after id? slot? := by
  cases hs with
  | none => exact .none
  | some hid => exact .some (h _ _ hid)

theorem Holds.mono {table : Table} {before after : Numbering Nat} (h : before.Extends after)
    {slot : Nat} {node : Node} (hn : table.Holds before slot node) :
    table.Holds after slot node := by
  cases node with
  | leaf byte => exact hn
  | branch left right => exact ⟨hn.1, hn.2.1.mono h, hn.2.2.mono h⟩

/-! ### Reading one node -/

/-- What reading a node leaves behind: a numbering that is still lawful, keeps the old
numbers, and adds nothing but slots pointed at. -/
structure Grows (table : Table) (slot : Nat) (before after : Numbering Nat) : Prop where
  lawful : after.Lawful
  keeps : before.Extends after
  mem : ∀ other ∈ after.items, other ∈ before.items ∨ table.Points slot other

theorem toUInt32_le (byte : UInt8) : byte.toUInt32 ≤ 0xFF := by
  rw [UInt32.le_iff_toNat_le, UInt8.toNat_toUInt32]
  exact Nat.le_of_lt_succ byte.toNat_lt

theorem readNode_leaf {table : Table} {slots : Numbering Nat} {slot : Nat} {byte : UInt8}
    (hin : slot + 1 < table.words.size) (hl : table.follow slot = none)
    (hr : table.follow (slot + 1) = none)
    (hv : table.words[slot + 3]? = some byte.toUInt32) :
    table.readNode slots slot = .ok (.leaf byte, slots) := by
  have hle := toUInt32_le byte
  rw [readNode, if_neg (by omega)]
  simp only [hl, hr, hv, if_pos hle, UInt8.toUInt8_toUInt32]

theorem readNode_branch {table : Table} {slots : Numbering Nat} {slot : Nat}
    (hin : slot + 1 < table.words.size)
    (hp : ¬(table.follow slot = none ∧ table.follow (slot + 1) = none)) :
    table.readNode slots slot =
      .ok (.branch (slots.meet? (table.follow slot)).1
          ((slots.meet? (table.follow slot)).2.meet? (table.follow (slot + 1))).1,
        ((slots.meet? (table.follow slot)).2.meet? (table.follow (slot + 1))).2) := by
  rw [readNode, if_neg (by omega)]
  split
  · rename_i hl hr
    exact absurd ⟨hl, hr⟩ hp
  · rfl

/-- **Reading a readable node** succeeds, and gives what the table holds there. -/
theorem Readable.readNode {table : Table} {slots : Numbering Nat} {slot : Nat}
    (h : table.Readable slot) (hs : slots.Lawful) :
    ∃ node after, table.readNode slots slot = .ok (node, after) ∧
      table.Holds after slot node ∧ table.Grows slot slots after := by
  by_cases hp : table.follow slot = none ∧ table.follow (slot + 1) = none
  · obtain ⟨byte, hv⟩ := h.value hp.1 hp.2
    exact ⟨.leaf byte, slots, readNode_leaf h.inside hp.1 hp.2 hv, ⟨hp.1, hp.2, hv⟩,
      hs, .refl _, fun _ => Or.inl⟩
  · -- the left slot is met first, so its number has to survive meeting the right one
    have hleft := hs.meet? (table.follow slot)
    refine ⟨_, _, readNode_branch h.inside hp, ⟨hp, ?_, hleft.rel_meet? _⟩,
      hleft.meet? _, (Numbering.extends_meet? _ _).trans (Numbering.extends_meet? _ _), ?_⟩
    · exact Stands.mono (Numbering.extends_meet? _ _) (hs.rel_meet? _)
    · intro other hmem
      rcases (hleft.mem_meet? _ other).mp hmem with hmem | hright
      · exact ((hs.mem_meet? _ other).mp hmem).imp_right Or.inl
      · exact Or.inr (Or.inr hright)

/-! ### Exploring -/

/-- **The invariant of the exploration**: the numbering is lawful and starts with the root,
every slot in it can be reached, and the nodes read so far are what the table holds in the
first slots. -/
structure Survey.Sound (table : Table) (root : Nat) (survey : Survey) : Prop where
  lawful : survey.slots.Lawful
  rooted : survey.slots.items[0]? = some root
  reached : ∀ slot ∈ survey.slots.items, table.Reaches root slot
  behind : survey.nodes.size ≤ survey.slots.items.size
  holds : ∀ (id slot : Nat) (node : Node), survey.slots.items[id]? = some slot →
    survey.nodes[id]? = some node → table.Holds survey.slots slot node

theorem Survey.sound_start (table : Table) (root : Nat) :
    Survey.Sound table root ⟨(Numbering.empty.meet root).2, #[]⟩ where
  lawful := Numbering.lawful_empty.meet root
  rooted := by
    rw [Numbering.meet_of_not_ids (Numbering.lawful_empty.ids_eq_none (by simp [Numbering.empty]))]
    rfl
  reached slot hmem := by
    rcases (Numbering.lawful_empty.mem_meet root slot).mp hmem with hmem | rfl
    · simp [Numbering.empty] at hmem
    · exact .refl
  behind := Nat.zero_le _
  holds id slot node _ hnode := by simp at hnode

/-- A step of the exploration keeps the invariant: it reads the first slot whose node was
not read yet. -/
theorem Survey.Sound.push {table : Table} {root slot : Nat} {survey : Survey} {node : Node}
    {after : Numbering Nat} (h : Survey.Sound table root survey)
    (hslot : survey.slots.items[survey.nodes.size]? = some slot)
    (hnode : table.Holds after slot node) (hgrow : table.Grows slot survey.slots after) :
    Survey.Sound table root ⟨after, survey.nodes.push node⟩ where
  lawful := hgrow.lawful
  rooted := hgrow.keeps _ _ h.rooted
  reached other hmem := by
    rcases hgrow.mem other hmem with hmem | hpoint
    · exact h.reached other hmem
    · exact (h.reached slot (Array.mem_of_getElem? hslot)).tail hpoint
  behind := by
    have hlt := (Array.getElem?_eq_some_iff.mp (hgrow.keeps _ _ hslot)).1
    rw [Array.size_push]
    exact hlt
  holds id other node' hother hnode' := by
    rw [Array.getElem?_push] at hnode'
    by_cases hid : id = survey.nodes.size
    · -- the node that was just read
      rw [if_pos hid, Option.some.injEq] at hnode'
      rw [hid, hgrow.keeps _ _ hslot, Option.some.injEq] at hother
      exact hnode' ▸ hother ▸ hnode
    · -- an older node: its slot kept its number, and its children theirs
      rw [if_neg hid] at hnode'
      have hlt : id < survey.nodes.size := (Array.getElem?_eq_some_iff.mp hnode').1
      have hlt' : id < survey.slots.items.size := Nat.lt_of_lt_of_le hlt h.behind
      have hold : survey.slots.items[id]? = some survey.slots.items[id] :=
        Array.getElem?_eq_getElem hlt'
      rw [hgrow.keeps _ _ hold, Option.some.injEq] at hother
      exact (h.holds id other node' (hother ▸ hold) hnode').mono hgrow.keeps

/-- The slots met are distinct words of the table, so there are no more of them. -/
theorem Survey.Sound.size_le {table : Table} {root : Nat} {survey : Survey}
    (h : Survey.Sound table root survey)
    (hread : ∀ slot, table.Reaches root slot → table.Readable slot) :
    survey.slots.items.size ≤ table.words.size := by
  have hsub : survey.slots.items.toList ⊆ List.range table.words.size := by
    intro slot hmem
    have := (hread slot (h.reached slot (Array.mem_toList_iff.mp hmem))).inside
    exact List.mem_range.mpr (by omega)
  have hlen := (List.subperm_of_subset h.lawful.nodup hsub).length_le
  rwa [List.length_range, Array.length_toList] at hlen

/-- **Exploring a table whose reachable nodes can all be read** succeeds, keeps the
invariant, and leaves no node unread. -/
theorem explore_eq_ok {table : Table} {root : Nat}
    (hread : ∀ slot, table.Reaches root slot → table.Readable slot) (rounds : Nat)
    {survey : Survey} (h : Survey.Sound table root survey)
    (hrounds : table.words.size ≤ rounds + survey.nodes.size) :
    ∃ final, table.explore rounds survey = .ok final ∧ Survey.Sound table root final ∧
      final.nodes.size = final.slots.items.size := by
  induction rounds generalizing survey with
  | zero =>
    -- out of rounds: there are as many nodes as words, so no slot is left
    have hsize := h.size_le hread
    have hbehind := h.behind
    exact ⟨survey, rfl, h, by omega⟩
  | succ rounds ih =>
    rw [explore]
    rcases hslot : survey.slots.items[survey.nodes.size]? with _ | slot
    · have hge := Array.getElem?_eq_none_iff.mp hslot
      exact ⟨survey, rfl, h, Nat.le_antisymm h.behind hge⟩
    · have hreach := h.reached slot (Array.mem_of_getElem? hslot)
      obtain ⟨node, after, heq, hnode, hgrow⟩ := (hread slot hreach).readNode h.lawful
      simp only [heq]
      refine ih (h.push hslot hnode hgrow) ?_
      rw [Array.size_push]
      omega

end Table

/-! ### Loading -/

open Table in
/-- **Loading succeeds** on a table without stray pointers whose first word is a pointer and
whose reachable nodes can all be read, and the trie is a faithful copy. -/
theorem Trie.ofWords_eq_ok {words : Array UInt32} {first : UInt32} {root : Nat}
    (hfirst : words[0]? = some first) (hstray : (Table.mk words (first - 4)).stray? = none)
    (hroot : target? (first - 4) first = some root)
    (hread : ∀ slot, (Table.mk words (first - 4)).Reaches root slot →
      (Table.mk words (first - 4)).Readable slot) :
    ∃ survey : Survey, Trie.ofWords words = .ok ⟨survey.nodes⟩ ∧
      Survey.Sound ⟨words, first - 4⟩ root survey ∧
      survey.nodes.size = survey.slots.items.size := by
  obtain ⟨final, hexp, hsound, hsize⟩ :=
    explore_eq_ok hread words.size (Survey.sound_start _ root) (Nat.le_add_right _ _)
  refine ⟨final, ?_, hsound, hsize⟩
  rw [Trie.ofWords]
  simp only [hfirst, hstray, hroot, hexp]
  rfl

/-- Every slot met has its node in the copy. -/
theorem Table.Survey.Sound.exists_node {table : Table} {root id slot : Nat} {survey : Survey}
    (h : Survey.Sound table root survey) (hsize : survey.nodes.size = survey.slots.items.size)
    (hslot : survey.slots.items[id]? = some slot) :
    ∃ node, survey.nodes[id]? = some node ∧ table.Holds survey.slots slot node := by
  have hlt : id < survey.nodes.size := hsize ▸ (Array.getElem?_eq_some_iff.mp hslot).1
  exact ⟨survey.nodes[id], Array.getElem?_eq_getElem hlt,
    h.holds id slot _ hslot (Array.getElem?_eq_getElem hlt)⟩

end Code

end ZoneRelay
