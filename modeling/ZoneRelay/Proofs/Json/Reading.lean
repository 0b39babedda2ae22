import ZoneRelay.Json.Reader
import ZoneRelay.Proofs.Json.Quoted
import ZoneRelay.Proofs.Text.Digits

/-!
# What is written in JSON is read back

A value is read back from its text (`ZoneRelay.Json.read?_write`) if the text holds all there is
to it (`ZoneRelay.Json.Plain`): no number but a natural one below `2 ^ 64`, no string and no name
that is not a text.

Three readers call one another, and every call takes a round. How many rounds are enough is told
by the length of the text alone:

| what is read | how long its text is | rounds |
|---|---|---|
| a value | `n` | `2 * n` |
| items and the bracket behind them | `n` without the bracket | `2 * n + 1` |
| fields and the brace behind them | `n` without the brace | `2 * n + 1` |

A value is followed by a comma, a bracket, a brace, or nothing (`ZoneRelay.Json.Closes`), and a
number has to see that: its digits go on as long as there are any. The text of a value begins with
no blank and no closing bracket, so that a list of items is not taken for an empty one.
-/

namespace ZoneRelay

namespace Json

/-! ### Values and what surrounds them -/

/-- **A value whose text holds all of it.** -/
inductive Plain : Value → Prop where
  | null : Plain .null
  | boolean (b : Bool) : Plain (.boolean b)
  | natural {n : Nat} (h : n < UInt64.size) : Plain (.natural n)
  | text (s : String) : Plain (.text (some s))
  | list {items : List Value} (h : ∀ item ∈ items, Plain item) : Plain (.list items)
  | object {fields : List (Option String × Value)} (hnames : ∀ field ∈ fields, field.1.isSome)
      (hvalues : ∀ field ∈ fields, Plain field.2) : Plain (.object fields)

/-- What may stand behind a value. -/
def Closes (rest : Bytes) : Prop :=
  ∀ b ∈ rest.head?, b = ascii ',' ∨ b = ascii ']' ∨ b = ascii '\x7d'

theorem closes_cons {b : UInt8} (h : b = ascii ',' ∨ b = ascii ']' ∨ b = ascii '\x7d')
    (rest : Bytes) : Closes (b :: rest) := by
  rintro _ ⟨⟩
  exact h

theorem skipBlanks_cons {b : UInt8} (h : isBlank b = false) (rest : Bytes) :
    skipBlanks (b :: rest) = b :: rest := by
  rw [skipBlanks, List.dropWhile_cons, h]
  rfl

theorem encode_quoted (text : String) : Utf8.encode (quoted text) =
    ascii '"' :: ((text.toList.flatMap escaped).flatMap String.utf8EncodeChar ++
      [ascii '"']) := by
  rw [Utf8.encode, quoted, String.toList_ofList, List.cons_append, List.flatMap_cons,
    List.flatMap_append]
  rfl

/-! ### Numbers -/

/-- The bytes of decimal digits. -/
def numeral (digits : List Nat) : Bytes := digits.map fun d => ascii (Nat.digitChar d)

theorem encode_toString {n : Nat} {digits : List Nat} (h : Text.Spells 10 n digits) :
    Utf8.encode (toString n) = numeral digits := by
  have hchar : ∀ d < 10, String.utf8EncodeChar (Nat.digitChar d) = [ascii (Nat.digitChar d)] := by
    decide
  have hlist : ∀ list : List Nat, (∀ d ∈ list, d < 10) →
      (list.map Nat.digitChar).flatMap String.utf8EncodeChar = numeral list := by
    intro list hlist
    induction list with
    | nil => rfl
    | cons d rest ih =>
      rw [List.map_cons, List.flatMap_cons, hchar d (hlist d List.mem_cons_self),
        ih fun d hd => hlist d (List.mem_cons_of_mem _ hd)]
      rfl
  rw [Utf8.encode, Nat.toString_eq_repr, Nat.repr, String.toList_ofList, h.toDigits_eq]
  exact hlist digits h.lt_base

theorem isDigit_of_mem_numeral {digits : List Nat} (h : ∀ d ∈ digits, d < 10) {b : UInt8}
    (hb : b ∈ numeral digits) : isDigit b = true := by
  have hdigit : ∀ d < 10, isDigit (ascii (Nat.digitChar d)) = true := by decide
  obtain ⟨d, hd, rfl⟩ := List.mem_map.mp hb
  exact hdigit d (h d hd)

theorem decimal_numeral {digits : List Nat} (h : ∀ d ∈ digits, d < 10) :
    decimal (numeral digits) = Text.valueOf 10 digits := by
  have hdigit : ∀ d < 10, (ascii (Nat.digitChar d) - ascii '0').toNat = d := by decide
  have hfrom : ∀ start, (numeral digits).foldl (fun n b => n * 10 + (b - ascii '0').toNat) start =
      digits.foldl (fun value digit => value * 10 + digit) start := by
    induction digits with
    | nil => exact fun _ => rfl
    | cons d rest ih =>
      intro start
      rw [numeral, List.map_cons, List.foldl_cons, List.foldl_cons,
        hdigit d (h d List.mem_cons_self)]
      exact ih (fun d hd => h d (List.mem_cons_of_mem _ hd)) _
  exact hfrom 0

theorem ne_of_isDigit {b c : UInt8} (hb : isDigit b = true) (hc : isDigit c = false) : b ≠ c := by
  rintro rfl
  rw [hb] at hc
  cases hc

/-- A numeral ends where a value is closed. -/
theorem whole?_numeral {n : Nat} {digits : List Nat} (h : Text.Spells 10 n digits)
    {rest : Bytes} (hrest : Closes rest) :
    whole? (numeral digits ++ rest) = some (numeral digits, rest) := by
  have hzero : ∀ d < 10, ascii (Nat.digitChar d) = ascii '0' → d = 0 := by decide
  have hstop : rest.takeWhile isDigit = [] := by
    rcases rest with _ | ⟨b, rest⟩
    · rfl
    · rw [List.takeWhile_cons]
      rcases hrest b rfl with rfl | rfl | rfl <;> rfl
  have htake : (numeral digits ++ rest).takeWhile isDigit = numeral digits := by
    rw [List.takeWhile_append_of_pos fun b hb => isDigit_of_mem_numeral h.lt_base hb, hstop,
      List.append_nil]
  have hempty : (numeral digits).isEmpty = false := by
    rw [List.isEmpty_eq_false_iff, numeral, ne_eq, List.map_eq_nil_iff]
    exact h.ne_nil
  have hlead : ¬ ((numeral digits).head? = some (ascii '0') ∧ 1 < (numeral digits).length) := by
    rintro ⟨hhead, hlong⟩
    obtain ⟨d, tail, rfl⟩ := List.exists_cons_of_ne_nil h.ne_nil
    have hd := hzero d (h.lt_base d List.mem_cons_self) (Option.some.inj hhead)
    have hone := h.of_zero (congrArg some hd)
    rw [numeral, List.length_map, hone] at hlong
    exact Nat.lt_irrefl 1 hlong
  rw [whole?, digits?]
  simp only [htake, hempty, List.drop_left, Bool.false_eq_true, if_false, Option.bind_eq_bind,
    Option.bind_some, if_neg hlead]

/-- No fraction and no exponent follow where a value is closed. -/
theorem skip_of_closes {rest : Bytes} (h : Closes rest) :
    (skipFraction? rest).bind skipExponent? = some rest := by
  rcases rest with _ | ⟨b, rest⟩
  · rfl
  · rcases h b rfl with rfl | rfl | rfl <;> rfl

/-- **A number is read back.** -/
theorem readScalar?_toString {n : Nat} (hn : n < UInt64.size) {rest : Bytes}
    (hrest : Closes rest) :
    readScalar? (Utf8.encode (toString n) ++ rest) = some (.natural n, rest) := by
  obtain ⟨digits, h⟩ := Text.exists_digits (by decide : 1 < 10) n
  have hunsigned : readUnsigned? (numeral digits ++ rest) = some (.natural n, rest) := by
    rw [readUnsigned?, whole?_numeral h hrest]
    simp only [Option.bind_eq_bind, Option.bind_some, skip_of_closes hrest,
      decimal_numeral h.lt_base, h.value_eq, true_and, if_pos hn]
    rfl
  rw [encode_toString h]
  obtain ⟨d, tail, rfl⟩ := List.exists_cons_of_ne_nil h.ne_nil
  have hdigit : isDigit (ascii (Nat.digitChar d)) = true :=
    isDigit_of_mem_numeral h.lt_base List.mem_cons_self
  have hne : ∀ {c : UInt8}, isDigit c = false → ascii (Nat.digitChar d) ≠ c :=
    fun hc => ne_of_isDigit hdigit hc
  rw [← hunsigned, numeral, List.map_cons, List.cons_append, readScalar?, if_neg (hne (by decide)),
    if_neg (hne (by decide)), if_neg (hne (by decide)), if_neg (hne (by decide)), readNumber?,
    if_neg (hne (by decide))]

/-! ### Scalars -/

/-- How a scalar begins. -/
structure BeginsScalar (b : UInt8) : Prop where
  not_blank : isBlank b = false
  ne_bracket : b ≠ ascii '['
  ne_closing : b ≠ ascii ']'
  ne_brace : b ≠ ascii '\x7b'

theorem readValue?_scalar {b : UInt8} (h : BeginsScalar b) (fuel : Nat) (rest : Bytes) :
    readValue? (fuel + 1) (b :: rest) = readScalar? (b :: rest) := by
  rw [readValue?, skipBlanks_cons h.not_blank]
  simp only [if_neg h.ne_bracket, if_neg h.ne_brace]

theorem beginsScalar_of_isDigit {b : UInt8} (h : isDigit b = true) : BeginsScalar b where
  not_blank := by
    have hne : ∀ c : UInt8, isDigit c = false → (b == c) = false := by
      intro c hc
      exact beq_eq_false_iff_ne.mpr (ne_of_isDigit h hc)
    rw [isBlank, hne 0x20 (by decide), hne 0x09 (by decide), hne 0x0A (by decide),
      hne 0x0D (by decide)]
    rfl
  ne_bracket := ne_of_isDigit h (by decide)
  ne_closing := ne_of_isDigit h (by decide)
  ne_brace := ne_of_isDigit h (by decide)

/-- **A value is read back** wherever it is closed, in twice as many rounds as its text has bytes.
Its text begins neither with a blank nor with a closing bracket. -/
structure ReadsBack (v : Value) : Prop where
  begins : ∃ b tail, Utf8.encode (write v) = b :: tail ∧ isBlank b = false ∧ b ≠ ascii ']'
  read : ∀ fuel rest, 2 * (Utf8.encode (write v)).length ≤ fuel → Closes rest →
    readValue? fuel (Utf8.encode (write v) ++ rest) = some (v, rest)

theorem readsBack_scalar {v : Value} {b : UInt8} {tail : Bytes}
    (htext : Utf8.encode (write v) = b :: tail) (hb : BeginsScalar b)
    (hread : ∀ rest, Closes rest → readScalar? (b :: tail ++ rest) = some (v, rest)) :
    ReadsBack v where
  begins := ⟨b, tail, htext, hb.not_blank, hb.ne_closing⟩
  read fuel rest hfuel hrest := by
    rw [htext, List.length_cons] at hfuel
    obtain ⟨fuel, rfl⟩ := Nat.exists_eq_succ_of_ne_zero (by omega : fuel ≠ 0)
    rw [htext, List.cons_append, readValue?_scalar hb]
    exact hread rest hrest

theorem readsBack_natural {n : Nat} (hn : n < UInt64.size) : ReadsBack (.natural n) := by
  obtain ⟨digits, h⟩ := Text.exists_digits (by decide : 1 < 10) n
  obtain ⟨d, tail, rfl⟩ := List.exists_cons_of_ne_nil h.ne_nil
  have htext : Utf8.encode (write (.natural n)) = ascii (Nat.digitChar d) :: numeral tail := by
    rw [write, encode_toString h]
    rfl
  refine readsBack_scalar htext ?_ ?_
  · exact beginsScalar_of_isDigit (isDigit_of_mem_numeral h.lt_base List.mem_cons_self)
  · intro rest hrest
    rw [← htext, write]
    exact readScalar?_toString hn hrest

theorem readsBack_text (s : String) : ReadsBack (.text (some s)) := by
  have htext : Utf8.encode (write (.text (some s))) = ascii '"' ::
      ((s.toList.flatMap escaped).flatMap String.utf8EncodeChar ++ [ascii '"']) := by
    rw [write, encode_quoted]
  refine readsBack_scalar htext ⟨by decide, by decide, by decide, by decide⟩ ?_
  intro rest _
  obtain ⟨pieces, hread, htext⟩ := readPieces_quoted s rest
  rw [List.cons_append, List.append_assoc, List.singleton_append, readScalar?, if_pos rfl, hread,
    Option.map_some, htext]

theorem readsBack_null : ReadsBack .null := by
  have htext : Utf8.encode (write .null) = [ascii 'n', ascii 'u', ascii 'l', ascii 'l'] := by
    decide
  refine readsBack_scalar htext ⟨by decide, by decide, by decide, by decide⟩ ?_
  intro rest _
  rfl

theorem readsBack_boolean (b : Bool) : ReadsBack (.boolean b) := by
  cases b with
  | false =>
    have htext : Utf8.encode (write (.boolean false)) =
        [ascii 'f', ascii 'a', ascii 'l', ascii 's', ascii 'e'] := by decide
    refine readsBack_scalar htext ⟨by decide, by decide, by decide, by decide⟩ ?_
    intro rest _
    rfl
  | true =>
    have htext : Utf8.encode (write (.boolean true)) =
        [ascii 't', ascii 'r', ascii 'u', ascii 'e'] := by decide
    refine readsBack_scalar htext ⟨by decide, by decide, by decide, by decide⟩ ?_
    intro rest _
    rfl

/-! ### Lists -/

theorem encode_writeItems_cons_cons (item next : Value) (items : List Value) :
    Utf8.encode (writeItems (item :: next :: items)) =
      Utf8.encode (write item) ++ ascii ',' :: Utf8.encode (writeItems (next :: items)) := by
  rw [writeItems, Utf8.encode_append, Utf8.encode_append, List.append_assoc]
  · rfl
  · exact List.cons_ne_nil next items

/-- **The items of a list are read back** one after another. -/
theorem readItems?_writeItems {item : Value} {items : List Value}
    (h : ∀ v ∈ item :: items, ReadsBack v) (fuel : Nat) (rest : Bytes)
    (hfuel : 2 * (Utf8.encode (writeItems (item :: items))).length + 1 ≤ fuel) :
    readItems? fuel (Utf8.encode (writeItems (item :: items)) ++ ascii ']' :: rest) =
      some (item :: items, rest) := by
  obtain ⟨fuel, rfl⟩ := Nat.exists_eq_succ_of_ne_zero (by omega : fuel ≠ 0)
  have hitem : ReadsBack item := h item List.mem_cons_self
  induction items generalizing item fuel with
  | nil =>
    have hread := hitem.read fuel (ascii ']' :: rest) (by
      rw [writeItems] at hfuel
      omega) (closes_cons (Or.inr (Or.inl rfl)) rest)
    rw [readItems?, writeItems, hread]
    simp only [skipBlanks_cons (by decide : isBlank (ascii ']') = false), if_true]
  | cons next items ih =>
    rw [encode_writeItems_cons_cons, List.length_append, List.length_cons] at hfuel
    have hread := hitem.read fuel
      (ascii ',' :: (Utf8.encode (writeItems (next :: items)) ++ ascii ']' :: rest)) (by omega)
      (closes_cons (Or.inl rfl) _)
    obtain ⟨fuel, rfl⟩ := Nat.exists_eq_succ_of_ne_zero (by omega : fuel ≠ 0)
    have hrest := ih (fun v hv => h v (List.mem_cons_of_mem _ hv)) fuel (by omega)
      (h next (List.mem_cons_of_mem _ List.mem_cons_self))
    rw [readItems?, encode_writeItems_cons_cons, List.append_assoc, List.cons_append, hread]
    simp only [skipBlanks_cons (by decide : isBlank (ascii ',') = false),
      if_neg (by decide : ascii ',' ≠ ascii ']'), if_true, hrest, Option.map_some]

theorem begins_writeItems {item : Value} (h : ReadsBack item) (items : List Value) :
    ∃ b tail, Utf8.encode (writeItems (item :: items)) = b :: tail ∧ isBlank b = false ∧
      b ≠ ascii ']' := by
  obtain ⟨b, tail, htext, hb⟩ := h.begins
  rcases items with _ | ⟨next, items⟩
  · exact ⟨b, tail, by rw [writeItems, htext], hb⟩
  · exact ⟨b, _, by rw [encode_writeItems_cons_cons, htext, List.cons_append], hb⟩

theorem readsBack_list {items : List Value} (h : ∀ v ∈ items, ReadsBack v) :
    ReadsBack (.list items) := by
  have htext : Utf8.encode (write (.list items)) =
      ascii '[' :: (Utf8.encode (writeItems items) ++ [ascii ']']) := by
    rw [write, Utf8.encode_append, Utf8.encode_append]
    rfl
  refine ⟨⟨_, _, htext, by decide, by decide⟩, ?_⟩
  intro fuel rest hfuel _
  rw [htext, List.length_cons, List.length_append, List.length_singleton] at hfuel
  obtain ⟨fuel, rfl⟩ := Nat.exists_eq_succ_of_ne_zero (by omega : fuel ≠ 0)
  rw [htext, List.cons_append, List.append_assoc, List.singleton_append, readValue?,
    skipBlanks_cons (by decide)]
  simp only [if_true]
  rcases items with _ | ⟨item, items⟩
  · rfl
  · obtain ⟨b, tail, hbegins, hblank, hclosing⟩ :=
      begins_writeItems (h item List.mem_cons_self) items
    have hread := readItems?_writeItems h fuel rest (by omega)
    rw [hbegins, List.cons_append] at hread ⊢
    simp only [skipBlanks_cons hblank, if_neg hclosing, hread, Option.map_some]

/-! ### Objects -/

theorem encode_writeFields_singleton (name : Option String) (v : Value) :
    Utf8.encode (writeFields [(name, v)]) =
      Utf8.encode (quoted (name.getD "")) ++ ascii ':' :: Utf8.encode (write v) := by
  rw [writeFields, Utf8.encode_append, Utf8.encode_append, List.append_assoc]
  rfl

theorem encode_writeFields_cons_cons (name : Option String) (v : Value)
    (next : Option String × Value) (fields : List (Option String × Value)) :
    Utf8.encode (writeFields ((name, v) :: next :: fields)) =
      Utf8.encode (quoted (name.getD "")) ++ ascii ':' :: (Utf8.encode (write v) ++
        ascii ',' :: Utf8.encode (writeFields (next :: fields))) := by
  rw [writeFields, Utf8.encode_append, Utf8.encode_append, Utf8.encode_append,
    Utf8.encode_append, List.append_assoc, List.append_assoc, List.append_assoc]
  · rfl
  · exact List.cons_ne_nil next fields

/-- The name of a field is read back with the colon behind it. -/
theorem readName?_quoted (name : String) (rest : Bytes) :
    readName? (skipBlanks (Utf8.encode (quoted name) ++ ascii ':' :: rest)) =
      some (some name, rest) := by
  obtain ⟨pieces, hread, htext⟩ := readPieces_quoted name (ascii ':' :: rest)
  rw [encode_quoted, List.cons_append, List.append_assoc, List.singleton_append,
    skipBlanks_cons (by decide), readName?]
  simp only [ne_eq, not_true_eq_false, if_false, hread, Option.bind_eq_bind, Option.bind_some,
    skipBlanks_cons (by decide : isBlank (ascii ':') = false), if_true, htext]

/-- **The fields of an object are read back** one after another. -/
theorem readFields?_writeFields {field : Option String × Value}
    {fields : List (Option String × Value)}
    (hnames : ∀ f ∈ field :: fields, f.1.isSome) (h : ∀ f ∈ field :: fields, ReadsBack f.2)
    (fuel : Nat) (rest : Bytes)
    (hfuel : 2 * (Utf8.encode (writeFields (field :: fields))).length + 1 ≤ fuel) :
    readFields? fuel (Utf8.encode (writeFields (field :: fields)) ++ ascii '\x7d' :: rest) =
      some (field :: fields, rest) := by
  obtain ⟨fuel, rfl⟩ := Nat.exists_eq_succ_of_ne_zero (by omega : fuel ≠ 0)
  obtain ⟨name, v⟩ := field
  obtain ⟨name, rfl⟩ := Option.isSome_iff_exists.mp (hnames _ List.mem_cons_self)
  have hvalue : ReadsBack v := h _ List.mem_cons_self
  induction fields generalizing name v fuel with
  | nil =>
    rw [encode_writeFields_singleton, List.length_append, List.length_cons] at hfuel
    have hread := hvalue.read fuel (ascii '\x7d' :: rest) (by omega)
      (closes_cons (Or.inr (Or.inr rfl)) rest)
    rw [readFields?, encode_writeFields_singleton, Option.getD_some, List.append_assoc,
      List.cons_append, readName?_quoted]
    simp only [hread, skipBlanks_cons (by decide : isBlank (ascii '\x7d') = false), if_true]
  | cons next fields ih =>
    rw [encode_writeFields_cons_cons, List.length_append, List.length_cons, List.length_append,
      List.length_cons] at hfuel
    have hread := hvalue.read fuel
      (ascii ',' :: (Utf8.encode (writeFields (next :: fields)) ++ ascii '\x7d' :: rest))
      (by omega) (closes_cons (Or.inl rfl) _)
    obtain ⟨fuel, rfl⟩ := Nat.exists_eq_succ_of_ne_zero (by omega : fuel ≠ 0)
    obtain ⟨nextName, w⟩ := next
    have htail := fun f hf => hnames f (List.mem_cons_of_mem _ hf)
    obtain ⟨nextName, rfl⟩ := Option.isSome_iff_exists.mp (htail _ List.mem_cons_self)
    have hrest := ih fuel w nextName htail (fun f hf => h f (List.mem_cons_of_mem _ hf)) (by omega)
      (h _ (List.mem_cons_of_mem _ List.mem_cons_self))
    rw [readFields?, encode_writeFields_cons_cons, Option.getD_some, List.append_assoc,
      List.cons_append, List.append_assoc, List.cons_append, readName?_quoted]
    simp only [hread, skipBlanks_cons (by decide : isBlank (ascii ',') = false),
      if_neg (by decide : ascii ',' ≠ ascii '\x7d'), if_true, hrest, Option.map_some]

theorem begins_writeFields (field : Option String × Value)
    (fields : List (Option String × Value)) :
    ∃ tail, Utf8.encode (writeFields (field :: fields)) = ascii '"' :: tail := by
  obtain ⟨name, v⟩ := field
  rcases fields with _ | ⟨next, fields⟩
  · exact ⟨_, by rw [encode_writeFields_singleton, encode_quoted, List.cons_append]⟩
  · exact ⟨_, by rw [encode_writeFields_cons_cons, encode_quoted, List.cons_append]⟩

theorem readsBack_object {fields : List (Option String × Value)}
    (hnames : ∀ f ∈ fields, f.1.isSome) (h : ∀ f ∈ fields, ReadsBack f.2) :
    ReadsBack (.object fields) := by
  have htext : Utf8.encode (write (.object fields)) =
      ascii '\x7b' :: (Utf8.encode (writeFields fields) ++ [ascii '\x7d']) := by
    rw [write, Utf8.encode_append, Utf8.encode_append]
    rfl
  refine ⟨⟨_, _, htext, by decide, by decide⟩, ?_⟩
  intro fuel rest hfuel _
  rw [htext, List.length_cons, List.length_append, List.length_singleton] at hfuel
  obtain ⟨fuel, rfl⟩ := Nat.exists_eq_succ_of_ne_zero (by omega : fuel ≠ 0)
  rw [htext, List.cons_append, List.append_assoc, List.singleton_append, readValue?,
    skipBlanks_cons (by decide)]
  simp only [if_neg (by decide : ascii '\x7b' ≠ ascii '['), if_true]
  rcases fields with _ | ⟨field, fields⟩
  · rfl
  · obtain ⟨tail, hbegins⟩ := begins_writeFields field fields
    have hread := readFields?_writeFields hnames h fuel rest (by omega)
    rw [hbegins, List.cons_append] at hread ⊢
    simp only [skipBlanks_cons (by decide : isBlank (ascii '"') = false),
      if_neg (by decide : ascii '"' ≠ ascii '\x7d'), hread, Option.map_some]

/-! ### Values -/

/-- **Every value whose text holds all of it is read back.** -/
theorem readsBack_of_plain {v : Value} (h : Plain v) : ReadsBack v := by
  induction h with
  | null => exact readsBack_null
  | boolean b => exact readsBack_boolean b
  | natural hn => exact readsBack_natural hn
  | text s => exact readsBack_text s
  | list _ ih => exact readsBack_list ih
  | object hnames _ ih => exact readsBack_object hnames ih

/-- **Such a value is what its text spells.** -/
theorem read?_write {v : Value} (h : Plain v) : read? (Utf8.encode (write v)) = some v := by
  have hread := (readsBack_of_plain h).read (2 * (Utf8.encode (write v)).length + 2) []
    (by omega) (by rintro _ ⟨⟩)
  rw [List.append_nil] at hread
  rw [read?, hread]
  rfl

end Json

end ZoneRelay
