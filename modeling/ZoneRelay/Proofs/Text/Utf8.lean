import ZoneRelay.Text.Utf8

/-!
# UTF-8 reads back

The bytes of a text are decoded to the text (`ZoneRelay.Utf8.decode?_encode`). A character takes
one to four bytes, by the size of its scalar value. **Each number of bytes has its own ranges of
values**, and the machine that decodes knows them by the first two bytes: so for every number of
bytes it is shown that the first byte is one that asks for as many, and that the second one lies
in the range that the first one leaves to it. There are no surrogates among the characters, and
none above `10FFFF`; the narrow ranges behind `ED` and `F4` rest on that.
-/

namespace ZoneRelay

namespace Utf8

/-- What a byte does between characters, by its number. -/
theorem opening_ofNat {n : Nat} (hn : n < 256) : opening (UInt8.ofNat n) =
    if n < 0x80 then ([some (Char.ofNat n)], none)
    else if 0xC2 ≤ n ∧ n ≤ 0xDF then ([], some ⟨1, 0x80, 0xBF, n % 32⟩)
    else if n = 0xE0 then ([], some ⟨2, 0xA0, 0xBF, 0⟩)
    else if n = 0xED then ([], some ⟨2, 0x80, 0x9F, 13⟩)
    else if 0xE1 ≤ n ∧ n ≤ 0xEF then ([], some ⟨2, 0x80, 0xBF, n % 16⟩)
    else if n = 0xF0 then ([], some ⟨3, 0x90, 0xBF, 0⟩)
    else if 0xF1 ≤ n ∧ n ≤ 0xF3 then ([], some ⟨3, 0x80, 0xBF, n % 8⟩)
    else if n = 0xF4 then ([], some ⟨3, 0x80, 0x8F, 4⟩)
    else ([none], none) := by
  have hnat : (UInt8.ofNat n).toNat = n := UInt8.toNat_ofNat_of_lt' hn
  simp only [opening, UInt8.lt_iff_toNat_lt, UInt8.le_iff_toNat_le, ← UInt8.toNat_inj, hnat]
  rfl

/-- **Six more bits fit into a range**: the byte that carries them lies in it. -/
structure Fits (low high : UInt8) (n : Nat) : Prop where
  lt : n < 64
  low_le : low.toNat ≤ n + 0x80
  le_high : n + 0x80 ≤ high.toNat

/-- Any six bits fit into the full range. -/
theorem fits_full {n : Nat} (hn : n < 64) : Fits 0x80 0xBF n :=
  ⟨hn, Nat.le_add_left _ _, Nat.add_le_add_right (Nat.le_of_lt_succ hn) 0x80⟩

/-- What six more bits do inside a character, if they fit. -/
theorem step_continued {p : Pending} {n : Nat} (h : Fits p.low p.high n) :
    step (some p) (UInt8.ofNat (n + 0x80)) =
      if p.owed ≤ 1 then ([some (Char.ofNat (p.value * 64 + n))], none)
      else ([], some ⟨p.owed - 1, 0x80, 0xBF, p.value * 64 + n⟩) := by
  have hn := h.lt
  have hnat : (UInt8.ofNat (n + 0x80)).toNat = n + 0x80 := UInt8.toNat_ofNat_of_lt' (by
    show n + 0x80 < 256
    omega)
  have hrange : p.low ≤ UInt8.ofNat (n + 0x80) ∧ UInt8.ofNat (n + 0x80) ≤ p.high := by
    rw [UInt8.le_iff_toNat_le, UInt8.le_iff_toNat_le, hnat]
    exact ⟨h.low_le, h.le_high⟩
  have hbits : (n + 0x80) % 64 = n := by omega
  simp only [step, if_pos hrange, hnat, hbits]

theorem decodeFrom_cons (state : State) (b : UInt8) (rest : Bytes) :
    decodeFrom state (b :: rest) = (step state b).1 ++ decodeFrom (step state b).2 rest := by
  cases state <;> rfl

/-- **The last byte of a character** completes it. -/
theorem decodeFrom_last {low high : UInt8} {n value v : Nat} (h : Fits low high n)
    (hv : value * 64 + n = v) (rest : Bytes) :
    decodeFrom (some ⟨1, low, high, value⟩) (UInt8.ofNat (n + 0x80) :: rest) =
      some (Char.ofNat v) :: decodeFrom none rest := by
  have hstep := @step_continued ⟨1, low, high, value⟩ n h
  rw [decodeFrom_cons, hstep, if_pos (Nat.le_refl 1), hv]
  rfl

/-- A byte in the middle of a character leaves one less to come, in the full range. -/
theorem decodeFrom_middle {low high : UInt8} {n owed value v : Nat} (h : Fits low high n)
    (hv : value * 64 + n = v) (rest : Bytes) :
    decodeFrom (some ⟨owed + 2, low, high, value⟩) (UInt8.ofNat (n + 0x80) :: rest) =
      decodeFrom (some ⟨owed + 1, 0x80, 0xBF, v⟩) rest := by
  have hstep := @step_continued ⟨owed + 2, low, high, value⟩ n h
  rw [decodeFrom_cons, hstep, if_neg (by simp only; omega), hv]
  rfl

/-- The bytes of a character of two bytes. -/
theorem decodeFrom_two {v : Nat} (hlow : 0x7F < v) (hhigh : v ≤ 0x7FF) (rest : Bytes) :
    decodeFrom none (UInt8.ofNat (v / 64 % 0x20 + 0xC0) :: UInt8.ofNat (v % 0x40 + 0x80) :: rest) =
      some (Char.ofNat v) :: decodeFrom none rest := by
  have hvalue : (v / 64 % 0x20 + 0xC0) % 32 = v / 64 := by omega
  rw [decodeFrom_cons, step, opening_ofNat (by omega), if_neg (by omega),
    if_pos (by omega : _ ∧ _), hvalue]
  exact decodeFrom_last (fits_full (by omega)) (by omega) rest

/-- The bytes of a character of three bytes, which is no surrogate. -/
theorem decodeFrom_three {v : Nat} (hlow : 0x7FF < v) (hhigh : v ≤ 0xFFFF)
    (hvalid : v < 0xD800 ∨ 0xDFFF < v) (rest : Bytes) :
    decodeFrom none (UInt8.ofNat (v / 4096 % 0x10 + 0xE0) ::
      UInt8.ofNat (v / 64 % 0x40 + 0x80) :: UInt8.ofNat (v % 0x40 + 0x80) :: rest) =
      some (Char.ofNat v) :: decodeFrom none rest := by
  have hmore : ∀ {low high : UInt8}, Fits low high (v / 64 % 0x40) →
      decodeFrom (some ⟨2, low, high, v / 4096⟩) (UInt8.ofNat (v / 64 % 0x40 + 0x80) ::
        UInt8.ofNat (v % 0x40 + 0x80) :: rest) = some (Char.ofNat v) :: decodeFrom none rest := by
    intro low high h
    rw [decodeFrom_middle h (by omega : v / 4096 * 64 + v / 64 % 0x40 = v / 64)]
    exact decodeFrom_last (fits_full (by omega)) (by omega) rest
  have hfirst : v / 4096 % 0x10 = v / 4096 := by omega
  have hsecond : v / 64 % 0x40 < 64 := by omega
  rw [decodeFrom_cons, step, hfirst, opening_ofNat (by omega), if_neg (by omega),
    if_neg (by omega)]
  -- behind `E0` and `ED` the second byte has a narrow range
  by_cases hzero : v / 4096 = 0
  · rw [if_pos (by omega)]
    refine hzero ▸ hmore ⟨hsecond, ?_, (fits_full hsecond).le_high⟩
    show 160 ≤ v / 64 % 0x40 + 0x80
    omega
  · rw [if_neg (by omega)]
    by_cases hlate : v / 4096 = 13
    · rw [if_pos (by omega)]
      refine hlate ▸ hmore ⟨hsecond, (fits_full hsecond).low_le, ?_⟩
      show v / 64 % 0x40 + 0x80 ≤ 159
      omega
    · have hvalue : (v / 4096 + 0xE0) % 16 = v / 4096 := by omega
      rw [if_neg (by omega), if_pos (by omega : _ ∧ _), hvalue]
      exact hmore (fits_full hsecond)

/-- The bytes of a character of four bytes, which is not above `10FFFF`. -/
theorem decodeFrom_four {v : Nat} (hlow : 0xFFFF < v) (hhigh : v < 0x110000) (rest : Bytes) :
    decodeFrom none (UInt8.ofNat (v / 262144 % 0x08 + 0xF0) ::
      UInt8.ofNat (v / 4096 % 0x40 + 0x80) :: UInt8.ofNat (v / 64 % 0x40 + 0x80) ::
        UInt8.ofNat (v % 0x40 + 0x80) :: rest) =
      some (Char.ofNat v) :: decodeFrom none rest := by
  have hmore : ∀ {low high : UInt8}, Fits low high (v / 4096 % 0x40) →
      decodeFrom (some ⟨3, low, high, v / 262144⟩) (UInt8.ofNat (v / 4096 % 0x40 + 0x80) ::
        UInt8.ofNat (v / 64 % 0x40 + 0x80) :: UInt8.ofNat (v % 0x40 + 0x80) :: rest) =
        some (Char.ofNat v) :: decodeFrom none rest := by
    intro low high h
    rw [decodeFrom_middle h (by omega : v / 262144 * 64 + v / 4096 % 0x40 = v / 4096),
      decodeFrom_middle (fits_full (by omega)) (by omega : v / 4096 * 64 + v / 64 % 0x40 = v / 64)]
    exact decodeFrom_last (fits_full (by omega)) (by omega) rest
  have hfirst : v / 262144 % 0x08 = v / 262144 := by omega
  have hsecond : v / 4096 % 0x40 < 64 := by omega
  rw [decodeFrom_cons, step, hfirst, opening_ofNat (by omega), if_neg (by omega),
    if_neg (by omega), if_neg (by omega), if_neg (by omega), if_neg (by omega)]
  -- behind `F0` and `F4` the second byte has a narrow range
  by_cases hzero : v / 262144 = 0
  · rw [if_pos (by omega)]
    refine hzero ▸ hmore ⟨hsecond, ?_, (fits_full hsecond).le_high⟩
    show 144 ≤ v / 4096 % 0x40 + 0x80
    omega
  · rw [if_neg (by omega)]
    by_cases hlate : v / 262144 = 4
    · rw [if_neg (by omega), if_pos (by omega)]
      refine hlate ▸ hmore ⟨hsecond, (fits_full hsecond).low_le, ?_⟩
      show v / 4096 % 0x40 + 0x80 ≤ 143
      omega
    · have hvalue : (v / 262144 + 0xF0) % 8 = v / 262144 := by omega
      rw [if_pos (by omega : _ ∧ _), hvalue]
      exact hmore (fits_full hsecond)

/-- A byte of a character is its scalar value, or above `7F`. -/
theorem toNat_of_mem_utf8EncodeChar {c : Char} {b : UInt8} (hb : b ∈ String.utf8EncodeChar c) :
    b.toNat = c.toNat ∨ 0x80 ≤ b.toNat := by
  have hval : c.val.toNat = c.toNat := rfl
  rw [String.utf8EncodeChar, hval] at hb
  repeat' split at hb
  all_goals simp only [List.mem_cons, List.not_mem_nil, or_false] at hb
  · rw [hb, UInt8.toNat_ofNat']
    omega
  · rcases hb with rfl | rfl <;> rw [UInt8.toNat_ofNat'] <;> omega
  · rcases hb with rfl | rfl | rfl <;> rw [UInt8.toNat_ofNat'] <;> omega
  · rcases hb with rfl | rfl | rfl | rfl <;> rw [UInt8.toNat_ofNat'] <;> omega

/-- **The bytes of a character** are decoded to it. -/
theorem decodeFrom_utf8EncodeChar (c : Char) (rest : Bytes) :
    decodeFrom none (String.utf8EncodeChar c ++ rest) = some c :: decodeFrom none rest := by
  have hvalid : c.val.toNat < 0xD800 ∨ 0xDFFF < c.val.toNat ∧ c.val.toNat < 0x110000 := c.valid
  have hself : Char.ofNat c.val.toNat = c := Char.ofNat_toNat c
  rw [String.utf8EncodeChar]
  split
  · rw [List.singleton_append, decodeFrom_cons, step, opening_ofNat (by omega),
      if_pos (by omega), hself]
    rfl
  · split
    · exact (decodeFrom_two (by omega) (by omega) rest).trans (by rw [hself])
    · split
      · exact (decodeFrom_three (by omega) (by omega) (by omega) rest).trans (by rw [hself])
      · exact (decodeFrom_four (by omega) (by omega) rest).trans (by rw [hself])

/-- **The bytes of a text are decoded to its characters**, without a hole. -/
theorem decode_encode (text : String) : decode (encode text) = text.toList.map some := by
  rw [encode]
  induction text.toList with
  | nil => rfl
  | cons c rest ih =>
    rw [List.flatMap_cons, decode, decodeFrom_utf8EncodeChar]
    exact congrArg (some c :: ·) ih

/-- **The bytes of a text are decoded to the text.** -/
theorem decode?_encode (text : String) : decode? (encode text) = some text := by
  have hall : ∀ chars : List Char, (chars.map some).mapM id = some chars := by
    intro chars
    induction chars with
    | nil => rfl
    | cons c rest ih => simp [List.mapM_cons, ih]
  rw [decode?, decode_encode, hall, Option.map_some, String.ofList_toList]

/-- The lossy reading loses nothing of a text. -/
theorem decodeLossy_encode (text : String) : decodeLossy (encode text) = text := by
  have hchars : (fun c : Option Char => c.getD '\uFFFD') ∘ some = id := rfl
  rw [decodeLossy, decode_encode, List.map_map, hchars, List.map_id, String.ofList_toList]

@[simp] theorem encode_append (front back : String) :
    encode (front ++ back) = encode front ++ encode back := by
  rw [encode, String.toList_append, List.flatMap_append]
  rfl

end Utf8

end ZoneRelay
