import Mathlib.Data.List.Nodup
import ZoneRelay.Code.Numbering

/-!
# What a numbering knows

A numbering keeps its things twice: in a row, in the order they were met, and in a table
that gives each its number. This file states that the two agree
(`ZoneRelay.Code.Numbering.Lawful`), that meeting things keeps them in agreement, and that
**a number, once given, is never taken back** (`ZoneRelay.Code.Numbering.Extends`).

The loader of a decode table numbers slots and the layout of one numbers paths; both argue
from the three facts proved of `ZoneRelay.Code.Numbering.meet` here – it is lawful, it
extends, and it adds the thing it meets and nothing else.
-/

namespace ZoneRelay

namespace Code

namespace Numbering

section Lawful

variable {α : Type} [BEq α] [Hashable α]

/-- **The row and the table agree**: a thing has the number of its place in the row. -/
def Lawful (numbering : Numbering α) : Prop :=
  ∀ (item : α) (id : Nat), numbering.ids[item]? = some id ↔ numbering.items[id]? = some item

/-- **Numbers are kept**: whatever the first numbering numbers, the second one numbers the
same. -/
def Extends (before after : Numbering α) : Prop :=
  ∀ (id : Nat) (item : α), before.items[id]? = some item → after.items[id]? = some item

theorem Extends.refl (numbering : Numbering α) : Extends numbering numbering :=
  fun _ _ h => h

theorem Extends.trans {a b c : Numbering α} (hab : Extends a b) (hbc : Extends b c) :
    Extends a c :=
  fun id item h => hbc id item (hab id item h)

/-- Nothing has two numbers. -/
theorem Lawful.id_unique {numbering : Numbering α} (h : numbering.Lawful) {item : α} {i j : Nat}
    (hi : numbering.items[i]? = some item) (hj : numbering.items[j]? = some item) : i = j := by
  have hids := (h item i).mpr hi
  rw [(h item j).mpr hj] at hids
  exact (Option.some.inj hids).symm

/-- What is in the row has a number. -/
theorem Lawful.exists_id {numbering : Numbering α} (h : numbering.Lawful) {item : α}
    (hmem : item ∈ numbering.items) : ∃ id, numbering.ids[item]? = some id := by
  obtain ⟨id, hid⟩ := Array.mem_iff_getElem?.mp hmem
  exact ⟨id, (h item id).mpr hid⟩

/-- What is not in the row has no number. -/
theorem Lawful.ids_eq_none {numbering : Numbering α} (h : numbering.Lawful) {item : α}
    (hmem : item ∉ numbering.items) : numbering.ids[item]? = none := by
  rcases hids : numbering.ids[item]? with _ | id
  · rfl
  · exact absurd (Array.mem_iff_getElem?.mpr ⟨id, (h item id).mp hids⟩) hmem

/-- The row of a lawful numbering has no repetitions. -/
theorem Lawful.nodup {numbering : Numbering α} (h : numbering.Lawful) :
    numbering.items.toList.Nodup := by
  rw [List.nodup_iff_injective_getElem]
  rintro ⟨i, hi⟩ ⟨j, hj⟩ hij
  have hitem : numbering.items[i]? = some numbering.items.toList[i] := by
    rw [← Array.getElem?_toList, List.getElem?_eq_getElem hi]
  have hsame : numbering.items[j]? = some numbering.items.toList[i] := by
    rw [← Array.getElem?_toList, List.getElem?_eq_getElem hj]
    exact congrArg some hij.symm
  exact Fin.ext (h.id_unique hitem hsame)

end Lawful

/-! ### Meeting a thing -/

section Meet

variable {α : Type} [BEq α] [Hashable α]

/-- Meeting a thing again changes nothing. -/
theorem meet_of_ids {numbering : Numbering α} {item : α} {id : Nat}
    (h : numbering.ids[item]? = some id) : numbering.meet item = (id, numbering) := by
  rw [meet, h]

/-- A thing met for the first time gets the next number. -/
theorem meet_of_not_ids {numbering : Numbering α} {item : α}
    (h : numbering.ids[item]? = none) :
    numbering.meet item = (numbering.items.size,
      ⟨numbering.items.push item, numbering.ids.insert item numbering.items.size⟩) := by
  rw [meet, h]

theorem extends_meet (numbering : Numbering α) (item : α) :
    numbering.Extends (numbering.meet item).2 := by
  intro id other hid
  rcases hids : numbering.ids[item]? with _ | known
  · have hlt : id < numbering.items.size := (Array.getElem?_eq_some_iff.mp hid).1
    rw [meet_of_not_ids hids, Array.getElem?_push, if_neg (by omega), hid]
  · rwa [meet_of_ids hids]

/-- What was met has the number that meeting it gave. -/
theorem Lawful.getElem?_meet {numbering : Numbering α} (h : numbering.Lawful) (item : α) :
    (numbering.meet item).2.items[(numbering.meet item).1]? = some item := by
  rcases hids : numbering.ids[item]? with _ | known
  · simp [meet_of_not_ids hids]
  · rw [meet_of_ids hids]
    exact (h item known).mp hids

theorem Lawful.mem_meet {numbering : Numbering α} (h : numbering.Lawful) (item other : α) :
    other ∈ (numbering.meet item).2.items ↔ other ∈ numbering.items ∨ other = item := by
  rcases hids : numbering.ids[item]? with _ | known
  · simp [meet_of_not_ids hids]
  · rw [meet_of_ids hids]
    refine ⟨Or.inl, fun hor => hor.elim id fun heq => ?_⟩
    exact heq ▸ Array.mem_iff_getElem?.mpr ⟨known, (h item known).mp hids⟩

variable [LawfulBEq α] [LawfulHashable α]

omit [LawfulBEq α] [LawfulHashable α] in
theorem lawful_empty : (empty : Numbering α).Lawful := by
  intro item id
  simp [empty]

theorem Lawful.meet {numbering : Numbering α} (h : numbering.Lawful) (item : α) :
    (numbering.meet item).2.Lawful := by
  intro other id
  rcases hids : numbering.ids[item]? with _ | known
  · rw [meet_of_not_ids hids, Std.HashMap.getElem?_insert, Array.getElem?_push]
    -- the new number is no old one, and the new thing had no number
    by_cases heq : item = other
    · subst heq
      have hnew : ∀ k, numbering.items[k]? ≠ some item := fun k hk => by
        rw [(h item k).mpr hk] at hids
        cases hids
      by_cases hid : id = numbering.items.size
      · simp [hid]
      · simpa [hid, Ne.symm hid] using hnew id
    · by_cases hid : id = numbering.items.size
      · subst hid
        have hout : numbering.ids[other]? ≠ some numbering.items.size := fun hk => by
          have := (h other _).mp hk
          simp at this
        simpa [heq] using hout
      · simpa [heq, hid] using h other id
  · rw [meet_of_ids hids]
    exact h other id

omit [LawfulBEq α] [LawfulHashable α] in
/-- **Meeting what may be there**: the number given stands for the thing met, and there is
one exactly when there is the other. -/
theorem Lawful.rel_meet? {numbering : Numbering α} (h : numbering.Lawful) (item? : Option α) :
    Option.Rel (fun id item => (numbering.meet? item?).2.items[id]? = some item)
      (numbering.meet? item?).1 item? := by
  cases item? with
  | none => exact .none
  | some item => exact .some (h.getElem?_meet item)

theorem Lawful.meet? {numbering : Numbering α} (h : numbering.Lawful) (item? : Option α) :
    (numbering.meet? item?).2.Lawful := by
  cases item? with
  | none => exact h
  | some item => exact h.meet item

omit [LawfulBEq α] [LawfulHashable α] in
theorem extends_meet? (numbering : Numbering α) (item? : Option α) :
    numbering.Extends (numbering.meet? item?).2 := by
  cases item? with
  | none => exact .refl _
  | some item => exact extends_meet _ item

omit [LawfulBEq α] [LawfulHashable α] in
theorem Lawful.mem_meet? {numbering : Numbering α} (h : numbering.Lawful) (item? : Option α)
    (other : α) :
    other ∈ (numbering.meet? item?).2.items ↔ other ∈ numbering.items ∨ item? = some other := by
  cases item? with
  | none => simp [Numbering.meet?]
  | some item =>
    rw [Option.some.injEq, eq_comm]
    exact h.mem_meet item other

/-! ### Meeting many things -/

theorem Lawful.meetAll {numbering : Numbering α} (h : numbering.Lawful) (items : List α) :
    (numbering.meetAll items).Lawful := by
  induction items generalizing numbering with
  | nil => exact h
  | cons item rest ih => exact ih (h.meet item)

omit [LawfulBEq α] [LawfulHashable α] in
theorem extends_meetAll (numbering : Numbering α) (items : List α) :
    numbering.Extends (numbering.meetAll items) := by
  induction items generalizing numbering with
  | nil => exact .refl _
  | cons item rest ih => exact (extends_meet numbering item).trans (ih _)

theorem Lawful.mem_meetAll {numbering : Numbering α} (h : numbering.Lawful) (items : List α)
    (other : α) :
    other ∈ (numbering.meetAll items).items ↔ other ∈ numbering.items ∨ other ∈ items := by
  induction items generalizing numbering with
  | nil => simp [Numbering.meetAll]
  | cons item rest ih =>
    refine (ih (h.meet item)).trans ?_
    rw [h.mem_meet, List.mem_cons, or_assoc]

omit [LawfulBEq α] [LawfulHashable α] in
/-- Meeting things adds no more of them than there are. -/
theorem size_meetAll_le (numbering : Numbering α) (items : List α) :
    (numbering.meetAll items).items.size ≤ numbering.items.size + items.length := by
  induction items generalizing numbering with
  | nil => simp [meetAll]
  | cons item rest ih =>
    have hmeet : (numbering.meet item).2.items.size ≤ numbering.items.size + 1 := by
      rcases hids : numbering.ids[item]? with _ | known
      · simp [meet_of_not_ids hids]
      · simp [meet_of_ids hids]
    have hrest := ih (numbering.meet item).2
    rw [List.length_cons]
    exact Nat.le_trans hrest (by omega)

end Meet

end Numbering

end Code

end ZoneRelay
