import Std.Data.HashMap

/-!
# Numbering in order of first meeting

Things are numbered `0`, `1`, `2`, … in the order they are first met; meeting one again
gives its old number. The trie numbers the slots of a table this way when it is loaded,
and the layout of a table numbers the paths of a code.
-/

namespace ZoneRelay

namespace Code

/-- Things met so far, in order, and the number of each. -/
structure Numbering (α : Type) [BEq α] [Hashable α] where
  items : Array α
  ids : Std.HashMap α Nat

namespace Numbering

variable {α : Type} [BEq α] [Hashable α]

/-- Nothing met yet. -/
def empty : Numbering α := ⟨#[], ∅⟩

/-- Meets a thing: its number, a new one if it was not met before. -/
def meet (numbering : Numbering α) (item : α) : Nat × Numbering α :=
  match numbering.ids[item]? with
  | some id => (id, numbering)
  | none =>
    (numbering.items.size,
      ⟨numbering.items.push item, numbering.ids.insert item numbering.items.size⟩)

/-- Meets a thing if there is one. -/
def meet? (numbering : Numbering α) : Option α → Option Nat × Numbering α
  | none => (none, numbering)
  | some item => (some (numbering.meet item).1, (numbering.meet item).2)

/-- Meets the things of a list. -/
def meetAll (numbering : Numbering α) (items : List α) : Numbering α :=
  items.foldl (fun numbering item => (numbering.meet item).2) numbering

end Numbering

end Code

end ZoneRelay
