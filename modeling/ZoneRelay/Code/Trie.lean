import ZoneRelay.Code.Numbering
import ZoneRelay.Code.Words

/-!
# The decoding trie

The decode resource is a binary trie flattened into words. A node is four words `left`,
`right`, an unused one and `value`; an entry above `0xFF` is a pointer, and the first
word of the table points at the root. Pointers are addresses: the table's own base address
is the root pointer less four, and the distance from it, in words, is the target
(`ZoneRelay.Code.target?`, in wrapping arithmetic).

Loading turns the pointers that lead anywhere from the root into an array of nodes, so
that decoding cannot leave the table. Nodes are numbered in the order they are first met,
breadth first and left before right, the root being `0`. The table may be shared or cyclic:
a word that was met before keeps its number. Loading fails if any pointer of the table –
reachable or not – leads out of it, if the first word is no pointer, if a node's right
entry lies past the end, or if a node without children has no byte.

Each of the table's words is met at most once, so as many rounds as there are words
suffice.
-/

namespace ZoneRelay

namespace Code

/-- A node of the trie. A missing child means that no code continues that way. -/
inductive Node where
  /-- A branch with its children for bit 0 and bit 1. -/
  | branch (left right : Option Nat)
  /-- The end of a code. -/
  | leaf (byte : UInt8)
  deriving DecidableEq, Repr

/-- A trie; its root is node `0`. -/
structure Trie where
  nodes : Array Node
  deriving DecidableEq

namespace Trie

/-- The node with a number. -/
def node? (trie : Trie) (id : Nat) : Option Node := trie.nodes[id]?

/-- The child that a bit leads to. -/
def child? (trie : Trie) (id : Nat) (bit : Bool) : Option Nat :=
  match trie.node? id with
  | some (.branch left right) => if bit then right else left
  | _ => none

/-- The number of nodes. -/
def size (trie : Trie) : Nat := trie.nodes.size

end Trie

/-! ### Loading -/

/-- The word that an entry points at, if it is a pointer. -/
def target? (base entry : UInt32) : Option Nat :=
  if entry ≤ 0xFF then none else some ((entry - base) / 4).toNat

/-- A decode table: its words and the base of its pointers. -/
structure Table where
  words : Array UInt32
  base : UInt32

namespace Table

/-- The word that the entry in a slot points at, if there is one and it is a pointer. -/
def follow (table : Table) (slot : Nat) : Option Nat :=
  table.words[slot]?.bind (target? table.base)

/-- The first entry that leads out of the table. -/
def stray? (table : Table) : Option UInt32 :=
  table.words.toList.find? fun entry =>
    (target? table.base entry).any fun index => table.words.size ≤ index

/-- The slots met so far and the nodes read from the first of them. -/
structure Survey where
  slots : Numbering Nat
  nodes : Array Node

/-- The node in a slot, with its children met. -/
def readNode (table : Table) (slots : Numbering Nat) (slot : Nat) :
    Except TableFault (Node × Numbering Nat) :=
  if table.words.size ≤ slot + 1 then .error (.nodeTruncated slot)
  else
    match table.follow slot, table.follow (slot + 1) with
    | none, none =>
      match table.words[slot + 3]? with
      | some value =>
        if value ≤ 0xFF then .ok (.leaf value.toUInt8, slots)
        else .error (.leafWithoutValue slot)
      | none => .error (.leafWithoutValue slot)
    | left, right =>
      let (left, slots) := slots.meet? left
      let (right, slots) := slots.meet? right
      .ok (.branch left right, slots)

/-- Reads the nodes met so far and those they lead to, at most `rounds` of them. -/
def explore (table : Table) : (rounds : Nat) → Survey → Except TableFault Survey
  | 0, survey => .ok survey
  | rounds + 1, survey =>
    match survey.slots.items[survey.nodes.size]? with
    | none => .ok survey
    | some slot =>
      match table.readNode survey.slots slot with
      | .error fault => .error fault
      | .ok (node, slots) => explore table rounds ⟨slots, survey.nodes.push node⟩

end Table

/-- Loads a decode table. -/
def Trie.ofWords (words : Array UInt32) : Except TableFault Trie :=
  match words[0]? with
  | none => .error .decodeEmpty
  | some first =>
    let table : Table := ⟨words, first - 4⟩
    match table.stray? with
    | some entry =>
      .error (.pointerOutside entry ((entry - table.base) / 4).toNat words.size)
    | none =>
      match target? table.base first with
      | none => .error .rootMissing
      | some root =>
        (table.explore words.size ⟨(Numbering.empty.meet root).2, #[]⟩).map
          fun survey => ⟨survey.nodes⟩

end Code

end ZoneRelay
