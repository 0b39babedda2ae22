import Mathlib.Algebra.Group.Nat.Defs
import ZoneRelay.Bytes
import ZoneRelay.Net.Address
import ZoneRelay.Proofs.Text.Digits

/-!
# The text of an address reads back

Every socket address is read back from its text (`ZoneRelay.Address.ofText?_text`). What stands
in the way is that the parts of a text are told apart only by what follows them:

* a number ends at the first character that is no digit (`ZoneRelay.Address.number_toDigits`);
* a group of an IPv6 address could be the first number of an embedded IPv4 address, were it
  followed by a point (`ZoneRelay.Address.readV4_eq_none`);
* the groups in front of `::` end there, and those behind it at the closing bracket
  (`ZoneRelay.Address.readGroups_spelled`).

What `::` leaves out has to be zeros again. That is so because the run of groups that is left out
is one of zeros within the address (`ZoneRelay.Address.zeros_longestRun`).
-/

namespace ZoneRelay

namespace Address

open Text (Reader Spells exists_digits valueOf)

/-! ### Numbers -/

/-- The front of a text is no digit. -/
def NoDigit (base : Nat) (text : List Char) : Prop :=
  ∀ c ∈ text.head?, digitValue? base c = none

theorem digitValue?_digitChar {base digit : Nat} (hbase : base ≤ 16) (hdigit : digit < base) :
    digitValue? base digit.digitChar = some digit := by
  have hvalue : ∀ d < 16, digitValue? 16 d.digitChar = some d := by decide
  have h16 := hvalue digit (Nat.lt_of_lt_of_le hdigit hbase)
  rw [digitValue?] at h16 ⊢
  rw [Option.filter_eq_some_iff] at h16 ⊢
  exact ⟨h16.1, decide_eq_true hdigit⟩

theorem digits_eq {base : Nat} {text : List Char} (h : NoDigit base text) :
    digits base text = ([], text) := by
  rcases text with _ | ⟨c, rest⟩
  · rfl
  · rw [digits, h c rfl]

theorem digits_append {base : Nat} (hbase : base ≤ 16) {ds : List Nat} (hds : ∀ d ∈ ds, d < base)
    {rest : List Char} (hrest : NoDigit base rest) :
    digits base (ds.map Nat.digitChar ++ rest) = (ds, rest) := by
  induction ds with
  | nil => exact digits_eq hrest
  | cons d ds ih =>
    rw [List.map_cons, List.cons_append, digits,
      digitValue?_digitChar hbase (hds d List.mem_cons_self),
      ih fun e he => hds e (List.mem_cons_of_mem d he)]

/-- **A number ends where its digits do.** -/
theorem number_toDigits {base bound n : Nat} {width : Option Nat} {zeros : Bool}
    {rest : List Char} (hone : 1 < base) (hbase : base ≤ 16) (hn : n < bound)
    (hwidth : ∀ w ∈ width, 0 < w ∧ n < base ^ w) (hrest : NoDigit base rest) :
    number base bound width zeros (Nat.toDigits base n ++ rest) = some (n, rest) := by
  obtain ⟨ds, hds⟩ := exists_digits hone n
  have hshort : width.any (fun w => decide (w < ds.length)) = false := by
    rcases width with _ | w
    · rfl
    · obtain ⟨hpos, hlt⟩ := hwidth w rfl
      rw [hds.length_eq]
      exact decide_eq_false (Nat.not_lt.mpr ((Nat.length_toDigits_le_iff hone hpos).mpr hlt))
  have hfirst : (!zeros && ds.head? == some 0 && decide (1 < ds.length)) = false := by
    rw [Bool.and_eq_false_iff, decide_eq_false_iff_not]
    by_cases hzero : ds.head? = some 0
    · exact Or.inr (by rw [hds.of_zero hzero]; exact Nat.lt_irrefl 1)
    · left
      rw [beq_false_of_ne hzero, Bool.and_false]
  have hempty : ds.isEmpty = false := by
    rw [List.isEmpty_eq_false_iff]
    exact hds.ne_nil
  have hvalue : ds.foldl (fun acc d => acc * base + d) 0 = n := hds.value_eq
  rw [hds.toDigits_eq, number]
  simp only [digits_append hbase hds.lt_base hrest, hempty, hshort, hfirst, hvalue,
    Bool.or_self, Bool.false_eq_true, if_false, if_neg (Nat.not_le.mpr hn)]

/-- Where there is no digit there is no number. -/
theorem number_eq_none {base bound : Nat} {width : Option Nat} {zeros : Bool} {text : List Char}
    (h : NoDigit base text) : number base bound width zeros text = none := by
  rw [number, digits_eq h]
  rfl

/-- A number leaves what follows its digits. -/
theorem rest_of_number {base bound n : Nat} {width : Option Nat} {zeros : Bool}
    {text rest : List Char} (h : number base bound width zeros text = some (n, rest)) :
    (digits base text).2 = rest := by
  rw [number] at h
  simp only at h
  split at h
  · cases h
  · split at h
    · cases h
    · split at h
      · cases h
      · exact (Prod.mk.inj (Option.some.inj h)).2

/-! ### IPv4 addresses -/

/-- The text of an IPv4 address is read back. -/
theorem readV4_dotted (a b c d : UInt8) {rest : List Char} (hrest : NoDigit 10 rest) :
    readV4 ((dotted a b c d).toList ++ rest) = some ((a, b, c, d), rest) := by
  have hpart : ∀ (x : UInt8) {text : List Char}, NoDigit 10 text →
      number 10 256 (some 3) false (Nat.toDigits 10 x.toNat ++ text) = some (x.toNat, text) := by
    intro x text htext
    have hx := x.toNat_lt
    refine number_toDigits (by decide) (by decide) hx ?_ htext
    rintro w ⟨⟩
    exact ⟨by decide, by omega⟩
  have hpoint : ∀ text, NoDigit 10 ('.' :: text) := by
    rintro text c ⟨⟩
    rfl
  have htext : (dotted a b c d).toList ++ rest =
      Nat.toDigits 10 a.toNat ++ '.' :: (Nat.toDigits 10 b.toNat ++ '.' ::
        (Nat.toDigits 10 c.toNat ++ '.' :: (Nat.toDigits 10 d.toNat ++ rest))) := by
    simp [dotted]
  rw [htext, readV4]
  simp [hpart _ (hpoint _), hpart _ hrest, Text.character]

/-- **What is not followed by a point** is no IPv4 address. -/
theorem readV4_eq_none {text : List Char} (h : ∀ c ∈ (digits 10 text).2.head?, c ≠ '.') :
    readV4 text = none := by
  rw [readV4]
  rcases hnumber : number 10 256 (some 3) false text with _ | ⟨n, rest⟩
  · rfl
  · rw [rest_of_number hnumber] at h
    rcases rest with _ | ⟨c, rest⟩
    · simp [Text.character]
    · simp [Text.character, h c rfl]

/-! ### The groups of an IPv6 address -/

/-- What stands behind groups that are written: `::`, or the scope or the closing bracket. -/
def Stops (text : List Char) : Prop :=
  (∃ rest, text = ':' :: ':' :: rest) ∨ ∃ c rest, text = c :: rest ∧ (c = ']' ∨ c = '%')

/-- Groups as they are written, with a colon in front unless they are the first. -/
def spelled : (first : Bool) → List UInt16 → List Char
  | _, [] => []
  | first, g :: rest =>
    (if first then [] else [':']) ++ (Nat.toDigits 16 g.toNat ++ spelled false rest)

theorem toList_colons (groups : List UInt16) : (colons groups).toList = spelled true groups := by
  induction groups with
  | nil => simp [colons, spelled]
  | cons g rest ih =>
    rcases rest with _ | ⟨next, rest⟩
    · simp [colons, spelled]
    · have hcolons : colons (g :: next :: rest) =
          String.ofList (Nat.toDigits 16 g.toNat) ++ ":" ++ colons (next :: rest) :=
        String.intercalate_cons_cons
      rw [hcolons, String.toList_append, ih]
      simp [spelled]

/-- The front of a text is a colon, a closing bracket or a percent sign: no digit and no point. -/
def Punctuated (text : List Char) : Prop := ∀ c ∈ text.head?, c = ':' ∨ c = ']' ∨ c = '%'

theorem punctuated_colon (text : List Char) : Punctuated (':' :: text) := by
  rintro _ ⟨⟩
  exact Or.inl rfl

theorem Punctuated.noDigit {text : List Char} (h : Punctuated text) (base : Nat) :
    NoDigit base text := by
  intro c hc
  rcases h c hc with rfl | rfl | rfl <;> rfl

theorem Punctuated.ne_point {text : List Char} (h : Punctuated text) :
    ∀ c ∈ (digits 10 text).2.head?, c ≠ '.' := by
  rw [digits_eq (h.noDigit 10)]
  intro c hc
  rcases h c hc with rfl | rfl | rfl <;> decide

theorem Stops.punctuated {text : List Char} (h : Stops text) : Punctuated text := by
  rcases h with ⟨rest, rfl⟩ | ⟨c, rest, rfl, hc⟩
  · exact punctuated_colon _
  · rintro _ ⟨⟩
    exact Or.inr hc

/-- Behind a group there is no digit and no point. -/
theorem punctuated_spelled (groups : List UInt16) {rest : List Char} (h : Stops rest) :
    Punctuated (spelled false groups ++ rest) := by
  rcases groups with _ | ⟨g, groups⟩
  · exact h.punctuated
  · exact punctuated_colon _

/-- **A group is no embedded IPv4 address**: no point follows its digits. -/
theorem readV4_group (g : UInt16) {tail : List Char} (htail : Punctuated tail) :
    readV4 (Nat.toDigits 16 g.toNat ++ tail) = none := by
  have hrest : ∀ front : List Char, (∀ c ∈ front, c ≠ '.') →
      ∀ c ∈ (digits 10 (front ++ tail)).2.head?, c ≠ '.' := by
    intro front hfront
    induction front with
    | nil => exact htail.ne_point
    | cons c front ih =>
      rw [List.cons_append, digits]
      rcases digitValue? 10 c with _ | d
      · rintro _ ⟨⟩
        exact hfront c List.mem_cons_self
      · exact ih fun e he => hfront e (List.mem_cons_of_mem c he)
  obtain ⟨ds, hds⟩ := exists_digits (by decide : 1 < 16) g.toNat
  refine readV4_eq_none (hrest _ ?_)
  rw [hds.toDigits_eq]
  intro c hc
  obtain ⟨d, -, rfl⟩ := List.mem_map.mp hc
  exact Nat.digitChar_ne _ (by decide)

/-- A group is read back. -/
theorem number_group (g : UInt16) {tail : List Char} (htail : Punctuated tail) :
    number 16 65536 (some 4) true (Nat.toDigits 16 g.toNat ++ tail) = some (g.toNat, tail) := by
  refine number_toDigits (by decide) (by decide) g.toNat_lt ?_ ?_
  · rintro w ⟨⟩
    exact ⟨by decide, g.toNat_lt⟩
  · exact htail.noDigit 16

/-- Behind the last group there is no other one. -/
theorem readGroups_nil (room : Nat) (first : Bool) {rest : List Char} (h : Stops rest) :
    readGroups room first rest = ([], false, rest) := by
  rcases room with _ | room
  · rfl
  · have hsep : ∀ r ∈ separator first rest, Punctuated r.2 := by
      rcases h with ⟨tail, rfl⟩ | ⟨c, tail, rfl, rfl | rfl⟩ <;> cases first <;>
        simp [Punctuated, separator, Text.character]
    have hv4 : (separator first rest).bind (fun r => readV4 r.2) = none := by
      rcases hfound : separator first rest with _ | ⟨⟨⟩, text⟩
      · rfl
      · exact readV4_eq_none (hsep _ hfound).ne_point
    have hnumber : (separator first rest).bind (fun r => number 16 65536 (some 4) true r.2) =
        none := by
      rcases hfound : separator first rest with _ | ⟨⟨⟩, text⟩
      · rfl
      · exact number_eq_none ((hsep _ hfound).noDigit 16)
    rw [readGroups, hv4, hnumber]
    simp only [ite_self]

/-- **Groups that are written are read back**, as far as there is room for them. -/
theorem readGroups_spelled {groups : List UInt16} {room : Nat} (hroom : groups.length ≤ room)
    (first : Bool) {rest : List Char} (h : Stops rest) :
    readGroups room first (spelled first groups ++ rest) = (groups, false, rest) := by
  induction groups generalizing room first with
  | nil => exact readGroups_nil room first h
  | cons g groups ih =>
    rcases room with _ | room
    · cases hroom
    · have htail := punctuated_spelled groups h
      have hsep : separator first (spelled first (g :: groups) ++ rest) =
          some ((), Nat.toDigits 16 g.toNat ++ (spelled false groups ++ rest)) := by
        cases first <;> simp [separator, spelled, Text.character]
      rw [readGroups, hsep]
      simp only [Option.bind_some, readV4_group g htail, number_group g htail, ite_self,
        ih (Nat.le_of_succ_le_succ hroom) false]
      simp

/-! ### The run of zeros -/

/-- A run of zeros within some groups. -/
structure Zeros (groups : List UInt16) (run : Run) : Prop where
  inside : run.start + run.length ≤ groups.length
  zero : ∀ i, run.start ≤ i → i < run.start + run.length → groups[i]? = some 0

/-- A run with the zero at a position behind it, or a new one. -/
def Run.grown (run : Run) (i : Nat) : Run :=
  if run.length = 0 then ⟨i, 1⟩ else ⟨run.start, run.length + 1⟩

theorem longestRun_zero (best current : Run) (i : Nat) (rest : List UInt16) :
    longestRun best current i (0 :: rest) =
      longestRun (if best.length < (current.grown i).length then current.grown i else best)
        (current.grown i) (i + 1) rest :=
  if_pos rfl

theorem Zeros.grown {groups : List UInt16} {run : Run} {i : Nat} (h : Zeros groups run)
    (hend : run.length ≠ 0 → run.start + run.length = i) (hi : groups[i]? = some 0) :
    Zeros groups (run.grown i) ∧ (run.grown i).start + (run.grown i).length = i + 1 := by
  have hlt : i < groups.length := (List.getElem?_eq_some_iff.mp hi).1
  rw [Run.grown]
  split
  · refine ⟨⟨hlt, fun j hle hj => ?_⟩, rfl⟩
    obtain rfl : j = i := Nat.le_antisymm (Nat.le_of_lt_succ hj) hle
    exact hi
  · rename_i hne
    have hi' := hend hne
    refine ⟨⟨by simp only; omega, fun j hle hj => ?_⟩, by simp only; omega⟩
    simp only at hle hj
    by_cases hold : j < run.start + run.length
    · exact h.zero j hle hold
    · obtain rfl : j = i := by omega
      exact hi

/-- **The longest run is one of zeros**, if the runs so far are, and the current one ends where the
others begin. -/
theorem zeros_longestRun {groups : List UInt16} {best current : Run} {i : Nat}
    {rest : List UInt16} (hrest : groups.drop i = rest) (hbest : Zeros groups best)
    (hcurrent : Zeros groups current)
    (hend : current.length ≠ 0 → current.start + current.length = i) :
    Zeros groups (longestRun best current i rest) := by
  induction rest generalizing best current i with
  | nil => exact hbest
  | cons g rest ih =>
    have hg : groups[i]? = some g := by
      rw [← List.head?_drop, hrest]
      rfl
    have hnext : groups.drop (i + 1) = rest := by
      rw [← List.tail_drop, hrest]
      rfl
    by_cases hzero : g = 0
    · subst hzero
      obtain ⟨hgrown, hend⟩ := hcurrent.grown hend hg
      rw [longestRun_zero]
      refine ih hnext ?_ hgrown fun _ => hend
      split
      · exact hgrown
      · exact hbest
    · rw [longestRun, if_neg hzero]
      refine ih hnext hbest ⟨Nat.zero_le _, fun j _ hj => ?_⟩ fun hne => absurd rfl hne
      exact absurd hj (Nat.not_lt_zero j)

/-- **What a run leaves out** is filled in with zeros. -/
theorem spread_take_drop {groups : Vector UInt16 8} {run : Run}
    (h : Zeros groups.toList run) :
    spread (groups.toList.take run.start) (groups.toList.drop (run.start + run.length)) =
      groups := by
  have hinside := h.inside
  rw [Vector.length_toList] at hinside
  have hfilled : groups.toList.take run.start ++ List.replicate run.length 0 ++
      groups.toList.drop (run.start + run.length) = groups.toList := by
    have hzeros : (groups.toList.drop run.start).take run.length =
        List.replicate run.length 0 := by
      refine List.eq_replicate_iff.mpr ⟨?_, fun g hg => ?_⟩
      · rw [List.length_take, List.length_drop, Vector.length_toList]
        omega
      · obtain ⟨i, hi⟩ := List.mem_iff_getElem?.mp hg
        rw [List.getElem?_take] at hi
        split at hi
        · rw [List.getElem?_drop, h.zero _ (by omega) (by omega)] at hi
          exact (Option.some.inj hi).symm
        · cases hi
    rw [← hzeros, ← List.drop_drop, List.append_assoc, List.take_append_drop,
      List.take_append_drop]
  have hcount : 8 - (groups.toList.take run.start).length -
      (groups.toList.drop (run.start + run.length)).length = run.length := by
    rw [List.length_take, List.length_drop, Vector.length_toList]
    omega
  rw [spread, hcount, hfilled]
  refine Vector.ext fun i hi => ?_
  have hlist : i < groups.toList.length := by rwa [Vector.length_toList]
  rw [Vector.getElem_ofFn, List.getD_eq_getElem?_getD, List.getElem?_eq_getElem hlist,
    Option.getD_some, Vector.getElem_toList]

/-! ### IPv6 addresses -/

/-- What stands behind the groups of an address that is written out. -/
def Closes (text : List Char) : Prop := ∃ c rest, text = c :: rest ∧ (c = ']' ∨ c = '%')

theorem Closes.noDigit {text : List Char} (h : Closes text) (base : Nat) : NoDigit base text :=
  (Stops.punctuated (Or.inr h)).noDigit base

/-- The last two groups of an address are read back from their four bytes. -/
theorem readGroups_embedded (x y : UInt16) {rest : List Char} (h : Closes rest) :
    readGroups 7 true ('f' :: 'f' :: 'f' :: 'f' :: ':' ::
      ((dotted (x >>> 8).toUInt8 x.toUInt8 (y >>> 8).toUInt8 y.toUInt8).toList ++ rest)) =
      ([0xFFFF, x, y], true, rest) := by
  have hbytes : ∀ w : UInt16, (w >>> 8).toUInt8.toUInt16 <<< 8 ||| w.toUInt8.toUInt16 = w := by
    intro w
    rw [UInt16.or_comm]
    exact Bytes.u16_ofU16 w
  have hfirst : ∀ text : List Char, readV4 ('f' :: text) = none := by
    intro text
    rw [readV4, number_eq_none]
    · rfl
    · rintro _ ⟨⟩
      rfl
  have hnumber : ∀ text : List Char, number 16 65536 (some 4) true
      ('f' :: 'f' :: 'f' :: 'f' :: ':' :: text) = some (65535, ':' :: text) :=
    fun text => number_group 0xFFFF (punctuated_colon text)
  have hlast : readGroups 6 false (':' ::
      ((dotted (x >>> 8).toUInt8 x.toUInt8 (y >>> 8).toUInt8 y.toUInt8).toList ++ rest)) =
      ([x, y], true, rest) := by
    rw [readGroups]
    simp only [separator, Text.character, Bool.false_eq_true, if_false, if_true, Option.bind_some,
      readV4_dotted _ _ _ _ (h.noDigit 10), hbytes, Nat.succ_ne_zero]
  rw [readGroups]
  simp [separator, hfirst, hnumber, hlast]

/-- An address that embeds an IPv4 address is read back. -/
theorem readV6_embedded {groups : Vector UInt16 8} {x y : UInt16}
    (hgroups : groups.toList = [0, 0, 0, 0, 0, 0xFFFF, x, y]) {rest : List Char}
    (h : Closes rest) :
    readV6 (("::ffff:" ++ dotted (x >>> 8).toUInt8 x.toUInt8 (y >>> 8).toUInt8
      y.toUInt8).toList ++ rest) = some (groups, rest) := by
  have hcolons : ∀ text, Stops (':' :: ':' :: text) := fun text => Or.inl ⟨text, rfl⟩
  have hspread : spread [] [0xFFFF, x, y] = groups := by
    rw [← Vector.toList_inj, hgroups]
    rfl
  have htext : ("::ffff:" ++ dotted (x >>> 8).toUInt8 x.toUInt8 (y >>> 8).toUInt8
      y.toUInt8).toList ++ rest = ':' :: ':' :: 'f' :: 'f' :: 'f' :: 'f' :: ':' ::
        ((dotted (x >>> 8).toUInt8 x.toUInt8 (y >>> 8).toUInt8 y.toUInt8).toList ++ rest) := by
    simp
  rw [htext, readV6, readGroups_nil 8 true (hcolons _)]
  simp [Text.character, readGroups_embedded x y h, hspread]

/-- An address in which a run of zeros is left out is read back. -/
theorem readV6_compressed {groups : Vector UInt16 8} {run : Run} (hzeros : Zeros groups.toList run)
    (hlong : 2 ≤ run.length) {rest : List Char} (h : Closes rest) :
    readV6 ((colons (groups.toList.take run.start) ++ "::" ++
      colons (groups.toList.drop (run.start + run.length))).toList ++ rest) =
      some (groups, rest) := by
  have hcolons : ∀ text, Stops (':' :: ':' :: text) := fun text => Or.inl ⟨text, rfl⟩
  have hinside := hzeros.inside
  rw [Vector.length_toList] at hinside
  have hfront : (groups.toList.take run.start).length = run.start := by
    rw [List.length_take, Vector.length_toList]
    omega
  have hback : (groups.toList.drop (run.start + run.length)).length ≤ 7 - run.start := by
    rw [List.length_drop, Vector.length_toList]
    omega
  have htext : (colons (groups.toList.take run.start) ++ "::" ++
      colons (groups.toList.drop (run.start + run.length))).toList ++ rest =
      spelled true (groups.toList.take run.start) ++ ':' :: ':' ::
        (spelled true (groups.toList.drop (run.start + run.length)) ++ rest) := by
    simp [toList_colons]
  rw [htext, readV6, readGroups_spelled (by omega) true (hcolons _)]
  simp only [hfront, if_neg (by omega : ¬ run.start = 8), Bool.false_eq_true, if_false]
  simp [Text.character, readGroups_spelled hback true (Or.inr h), spread_take_drop hzeros]

/-- An address that is written out is read back. -/
theorem readV6_colons (groups : Vector UInt16 8) {rest : List Char} (h : Closes rest) :
    readV6 ((colons groups.toList).toList ++ rest) = some (groups, rest) := by
  have hlength : groups.toList.length = 8 := Vector.length_toList
  have hall : spread groups.toList [] = groups := by
    have hnone : Zeros groups.toList ⟨8, 0⟩ := by
      refine ⟨Nat.le_of_eq hlength.symm, fun i hle hi => ?_⟩
      exact absurd hi (Nat.not_lt.mpr hle)
    have hspread := spread_take_drop hnone
    rwa [List.take_of_length_le (by simp), List.drop_of_length_le (by simp)] at hspread
  rw [toList_colons, readV6, readGroups_spelled (Nat.le_of_eq hlength) true (Or.inr h)]
  simp only [if_pos hlength, hall]

/-- **The text of an IPv6 address is read back.** -/
theorem readV6_textV6 (groups : Vector UInt16 8) {rest : List Char} (h : Closes rest) :
    readV6 ((textV6 groups).toList ++ rest) = some (groups, rest) := by
  have hzeros : Zeros groups.toList (longestRun ⟨0, 0⟩ ⟨0, 0⟩ 0 groups.toList) := by
    have hnone : Zeros groups.toList ⟨0, 0⟩ :=
      ⟨Nat.zero_le _, fun i _ hi => absurd hi (Nat.not_lt_zero i)⟩
    exact zeros_longestRun rfl hnone hnone fun hne => absurd rfl hne
  rw [textV6]
  split
  · rename_i x y hgroups
    exact readV6_embedded hgroups h
  · simp only
    split
    · rename_i hlong
      exact readV6_compressed hzeros hlong h
    · exact readV6_colons groups h

/-! ### Socket addresses -/

/-- The port at the end of a text is read back. -/
theorem readPort_toDigits (port : UInt16) :
    readPort (':' :: Nat.toDigits 10 port.toNat) = some (port, []) := by
  have hnumber : number 10 65536 none true (Nat.toDigits 10 port.toNat) =
      some (port.toNat, []) := by
    have hread := @number_toDigits 10 65536 port.toNat none true [] (by decide) (by decide)
      port.toNat_lt nofun nofun
    rwa [List.append_nil] at hread
  simp [readPort, Text.character, hnumber]

/-- The scope of an address is read back, which is not written if it is zero. -/
theorem readScope_zone (scope : UInt32) (rest : List Char) :
    readScope ((if scope = 0 then "" else "%" ++ toString scope.toNat).toList ++ ']' :: rest) =
      some (scope, ']' :: rest) := by
  have hnumber : number 10 4294967296 none true (Nat.toDigits 10 scope.toNat ++ ']' :: rest) =
      some (scope.toNat, ']' :: rest) := by
    refine number_toDigits (by decide) (by decide) scope.toNat_lt nofun ?_
    rintro _ ⟨⟩
    rfl
  split
  · rename_i hzero
    rw [hzero]
    rfl
  · simp [readScope, Text.character, hnumber]

theorem readSocketV4_text (a b c d : UInt8) (port : UInt16) :
    readSocketV4 (text (.v4 a b c d port)).toList = some (.v4 a b c d port, []) := by
  have htext : (text (.v4 a b c d port)).toList =
      (dotted a b c d).toList ++ ':' :: Nat.toDigits 10 port.toNat := by
    simp [text]
  rw [htext, readSocketV4, readV4_dotted a b c d ((punctuated_colon _).noDigit 10)]
  simp [readPort_toDigits]

theorem toList_text_v6 (groups : Vector UInt16 8) (scope : UInt32) (port : UInt16) :
    (text (.v6 groups scope port)).toList = '[' :: ((textV6 groups).toList ++
      ((if scope = 0 then "" else "%" ++ toString scope.toNat).toList ++
        ']' :: ':' :: Nat.toDigits 10 port.toNat)) := by
  simp [text]

theorem readSocketV6_text (groups : Vector UInt16 8) (scope : UInt32) (port : UInt16) :
    readSocketV6 (text (.v6 groups scope port)).toList = some (.v6 groups scope port, []) := by
  have hcloses : Closes ((if scope = 0 then "" else "%" ++ toString scope.toNat).toList ++
      ']' :: ':' :: Nat.toDigits 10 port.toNat) := by
    split
    · exact ⟨']', _, rfl, Or.inl rfl⟩
    · exact ⟨'%', _, by rw [String.toList_append]; rfl, Or.inr rfl⟩
  rw [toList_text_v6, readSocketV6]
  simp only [Text.character, if_true, Option.bind_eq_bind, Option.bind_some,
    readV6_textV6 groups hcloses, readScope_zone, readPort_toDigits]

/-- **Every address is read back from its text.** A bracket in front is no IPv4 address. -/
theorem ofText?_text (address : Address) : ofText? address.text = some address := by
  cases address with
  | v4 a b c d port =>
    rw [ofText?, readSocketV4_text]
    rfl
  | v6 groups scope port =>
    have hbracket : readSocketV4 (text (.v6 groups scope port)).toList = none := by
      have hnumber : readV4 (text (.v6 groups scope port)).toList = none := by
        rw [toList_text_v6, readV4, number_eq_none]
        · rfl
        · rintro _ ⟨⟩
          rfl
      rw [readSocketV4, hnumber]
      rfl
    rw [ofText?, hbracket, readSocketV6_text]
    rfl

end Address

end ZoneRelay
