import Mathlib.Algebra.Group.Nat.Defs
import Mathlib.Data.List.GetD
import ZoneRelay.Cipher.Packet

/-!
# Schedules as numbers

Expanding a hash is more than five hundred encryptions, each with the tables as the ones before it
left them. What a certain hash comes to is therefore nothing to unfold by hand. Here it is made
something that can be evaluated: the tables of a schedule become the digits of five numbers, its
**image**, and whatever the cipher does to the words is done to the digits.

| of a schedule | of its image | theorem |
|---|---|---|
| the word at a position | a shift and a remainder | `ZoneRelay.Cipher.Image.word_ofWords` |
| storing two words | cutting a number up and adding | `ZoneRelay.Cipher.Image.put_ofWords` |
| encrypting a block | `ZoneRelay.Cipher.Image.encrypt` | `ZoneRelay.Cipher.Image.encrypt_image` |
| expanding a hash | `ZoneRelay.Cipher.Image.expand` | `ZoneRelay.Cipher.Image.expand_image` |

Two things keep the evaluation short. The operations of the inner rounds are those of `Nat` itself,
with no instance to unfold; and every number is evaluated before anything is done with it
(`ZoneRelay.Cipher.Image.evaluated`), so that the functions take what comes next as an argument.

What is gained are tests: whether the schedule of a hash encrypts a block, the blocks of a byte
string, or a datagram, to what it is said to. A test passes on the image just if this is so of the
schedule itself (`ZoneRelay.Cipher.Image.encryptsTo_iff`), so it is enough to evaluate it there
(`ZoneRelay.Cipher.Image.test_eq`).
-/

namespace ZoneRelay

namespace Cipher

/-- The tables of a schedule, each as a number with the words for digits, the first the lowest. -/
structure Image where
  keys : Nat
  box₀ : Nat
  box₁ : Nat
  box₂ : Nat
  box₃ : Nat

namespace Image

/-! ### Words as digits -/

/-- The number whose digits the words are. -/
def ofWords : List UInt32 → Nat
  | [] => 0
  | w :: rest => w.toNat + ofWords rest * 4294967296

/-- The digit of a number at a position. -/
def word (image i : Nat) : Nat := Nat.mod (Nat.shiftRight image (Nat.mul 32 i)) 4294967296

/-- The number with other digits at positions `2 * i` and `2 * i + 1`. -/
def put (image i left right : Nat) : Nat :=
  image % 2 ^ (64 * i) +
    (left + (right + image >>> (64 * (i + 1)) * 4294967296) * 4294967296) * 2 ^ (64 * i)

theorem word_eq (image i : Nat) : word image i = (image >>> (32 * i)) % 4294967296 := rfl

/-- Behind the lowest digit stand the other ones. -/
theorem ofWords_cons_shiftRight (w : UInt32) (rest : List UInt32) :
    ofWords (w :: rest) >>> 32 = ofWords rest := by
  have hw : w.toNat < 4294967296 := w.toNat_lt
  rw [ofWords, Nat.shiftRight_eq_div_pow]
  omega

/-- **The digits are the words.** -/
theorem word_ofWords (words : List UInt32) (i : Nat) :
    word (ofWords words) i = (words.getD i 0).toNat := by
  rw [word_eq]
  induction words generalizing i with
  | nil => rw [ofWords, Nat.zero_shiftRight, List.getD_nil]; rfl
  | cons w rest ih =>
    cases i with
    | zero =>
      have hw : w.toNat < 4294967296 := w.toNat_lt
      rw [List.getD_cons_zero, Nat.mul_zero, Nat.shiftRight_zero, ofWords]
      omega
    | succ i =>
      rw [List.getD_cons_succ, ← ih, Nat.mul_succ, Nat.add_comm, Nat.shiftRight_add,
        ofWords_cons_shiftRight]

/-- Putting digits further up leaves the two lowest ones and goes on behind them. -/
theorem put_succ {low : Nat} (h : low < 2 ^ 64) (rest i left right : Nat) :
    put (low + rest * 2 ^ 64) (i + 1) left right = low + put rest i left right * 2 ^ 64 := by
  have hpow : 2 ^ (64 * (i + 1)) = 2 ^ 64 * 2 ^ (64 * i) := by rw [← Nat.pow_add]; congr 1; omega
  have hlow : (low + rest * 2 ^ 64) % 2 ^ (64 * (i + 1)) =
      low + rest % 2 ^ (64 * i) * 2 ^ 64 := by
    rw [hpow, Nat.mod_mul, Nat.add_mul_mod_self_right, Nat.mod_eq_of_lt h,
      Nat.add_mul_div_right _ _ (by decide), Nat.div_eq_of_lt h, Nat.zero_add,
      Nat.mul_comm (2 ^ 64)]
  have hhigh : (low + rest * 2 ^ 64) >>> (64 * (i + 1 + 1)) = rest >>> (64 * (i + 1)) := by
    rw [show 64 * (i + 1 + 1) = 64 + 64 * (i + 1) by omega, Nat.shiftRight_add,
      Nat.shiftRight_eq_div_pow _ 64, Nat.add_mul_div_right _ _ (by decide), Nat.div_eq_of_lt h,
      Nat.zero_add]
  rw [put, put, hlow, hhigh, hpow]
  generalize left + (right + rest >>> (64 * (i + 1)) * 4294967296) * 4294967296 = new
  rw [Nat.add_mul, Nat.mul_assoc new, Nat.mul_comm (2 ^ (64 * i)) (2 ^ 64), Nat.add_assoc]

/-- **Putting digits is storing words.** -/
theorem put_ofWords (words : List UInt32) {i : Nat} (h : 2 * i + 1 < words.length)
    (left right : UInt32) :
    put (ofWords words) i left.toNat right.toNat =
      ofWords ((words.set (2 * i) left).set (2 * i + 1) right) := by
  induction i generalizing words with
  | zero =>
    match words, h with
    | a :: b :: rest, _ =>
      have hrest : ofWords (a :: b :: rest) >>> (64 * (0 + 1)) = ofWords rest := by
        rw [show 64 * (0 + 1) = 32 + 32 from rfl, Nat.shiftRight_add, ofWords_cons_shiftRight,
          ofWords_cons_shiftRight]
      rw [put, hrest, Nat.mul_zero, Nat.pow_zero, Nat.mod_one, Nat.mul_one, Nat.zero_add]
      rfl
  | succ i ih =>
    match words, h with
    | a :: b :: rest, h =>
      have hpair : ∀ rest : List UInt32, ofWords (a :: b :: rest) =
          (a.toNat + b.toNat * 2 ^ 32) + ofWords rest * 2 ^ 64 := by
        intro rest
        rw [ofWords, ofWords]
        omega
      have hlow : a.toNat + b.toNat * 2 ^ 32 < 2 ^ 64 := by
        have ha := a.toNat_lt
        have hb := b.toNat_lt
        omega
      have hset : ((a :: b :: rest).set (2 * (i + 1)) left).set (2 * (i + 1) + 1) right =
          a :: b :: (rest.set (2 * i) left).set (2 * i + 1) right := rfl
      have hfits : 2 * i + 1 < rest.length := by
        simp only [List.length_cons] at h
        omega
      rw [hset, hpair, hpair, put_succ hlow, ih rest hfits]

/-! ### The image of a schedule -/

/-- Goes on with a number when it is evaluated: the cases cannot be told apart before. -/
def evaluated {α : Type} (n : Nat) (next : Nat → α) : α :=
  match n with
  | 0 => next 0
  | n + 1 => next (n + 1)

@[simp] theorem evaluated_eq {α : Type} (n : Nat) (next : Nat → α) :
    evaluated n next = next n := by
  cases n with
  | zero => rfl
  | succ n => rfl

/-- The image of a schedule, and what is done with it. -/
def ofSchedule {α : Type} (schedule : Schedule) (next : Image → α) : α :=
  evaluated (ofWords schedule.keys.toList) fun keys =>
  evaluated (ofWords schedule.box₀.toList) fun box₀ =>
  evaluated (ofWords schedule.box₁.toList) fun box₁ =>
  evaluated (ofWords schedule.box₂.toList) fun box₂ =>
  evaluated (ofWords schedule.box₃.toList) fun box₃ => next ⟨keys, box₀, box₁, box₂, box₃⟩

/-- The substitution of a word. -/
def substitute (image : Image) (x : Nat) : Nat :=
  let a := word image.box₀ (Nat.shiftRight x 24)
  let b := word image.box₁ (Nat.mod (Nat.shiftRight x 16) 256)
  let c := word image.box₂ (Nat.mod (Nat.shiftRight x 8) 256)
  let d := word image.box₃ (Nat.mod x 256)
  Nat.mod (Nat.add (Nat.xor (Nat.mod (Nat.add a b) 4294967296) c) d) 4294967296

/-- The rounds with the keys at the given positions, and what is done with the two words. -/
def rounds {α : Type} (image : Image) :
    List Nat → (left right : Nat) → (next : Nat → Nat → α) → α
  | [], left, right, next => next left right
  | i :: rest, left, right, next =>
    evaluated (Nat.xor left (word image.keys i)) fun mixed =>
      evaluated (Nat.xor right (substitute image mixed)) fun swapped =>
        rounds image rest swapped mixed next

/-- Encrypts a block, and what is done with its two words. -/
def encrypt {α : Type} (image : Image) (left right : Nat) (next : Nat → Nat → α) : α :=
  rounds image (List.range 16) left right fun left right =>
    evaluated (Nat.xor right (word image.keys 17)) fun first =>
      evaluated (Nat.xor left (word image.keys 16)) fun second => next first second

/-- Replaces `count` pairs of words of a table, from pair `i` on, by the words of the blocks that
are encrypted one out of the other, and what is done with all of it. -/
def fill {α : Type} (get : Image → Nat) (set : Image → Nat → Image) :
    (count i : Nat) → (image : Image) → (left right : Nat) → (next : Image → Nat → Nat → α) → α
  | 0, _, image, left, right, next => next image left right
  | count + 1, i, image, left, right, next =>
    encrypt image left right fun left right =>
      evaluated (put (get image) i left right) fun table =>
        fill get set count (i + 1) (set image table) left right next

/-- Expands a schedule that has a hash added to its round keys, and what is done with it. -/
def expand {α : Type} (image : Image) (next : Image → α) : α :=
  fill keys (fun image table => { image with keys := table }) 9 0 image 0 0
    fun image left right =>
  fill box₀ (fun image table => { image with box₀ := table }) 128 0 image left right
    fun image left right =>
  fill box₁ (fun image table => { image with box₁ := table }) 128 0 image left right
    fun image left right =>
  fill box₂ (fun image table => { image with box₂ := table }) 128 0 image left right
    fun image left right =>
  fill box₃ (fun image table => { image with box₃ := table }) 128 0 image left right
    fun image _ _ => next image

/-! ### Tests -/

/-- Expands a hash, and puts the schedule to a test. -/
def test (fold : Bytes → UInt32) (hash : Bytes) (passes : Image → Bool) : Bool :=
  ofSchedule (Schedule.keyed fold hash) fun image => expand image passes

/-- Whether a block is encrypted to a certain one. -/
def encryptsTo (image : Image) (block result : Block) : Bool :=
  encrypt image block.left.toNat block.right.toNat fun left right =>
    left == result.left.toNat && right == result.right.toNat

/-- Whether a byte string is encrypted, block by block, to a certain one. -/
def encryptsBlocksTo (image : Image) : (data result : Bytes) → Bool
  | a :: b :: c :: d :: e :: g :: h :: i :: rest, result =>
    (encrypt image (Bytes.u32 a b c d).toNat (Bytes.u32 e g h i).toNat fun left right =>
        Bytes.ofU32 (.ofNat left) ++ Bytes.ofU32 (.ofNat right) == result.take 8) &&
      encryptsBlocksTo image rest (result.drop 8)
  | rest, result => rest == result

/-- Whether a datagram is encrypted behind its header to a certain one. -/
def encryptsPacketTo (image : Image) (header : Nat) (datagram result : Bytes) : Bool :=
  let size := regionLength datagram.length header
  datagram.take header == result.take header &&
    encryptsBlocksTo image ((datagram.drop header).take size) ((result.drop header).take size) &&
    datagram.drop (header + size) == result.drop (header + size)

end Image

/-- The image of a schedule. -/
def Schedule.image (schedule : Schedule) : Image := Image.ofSchedule schedule id

namespace Image

section Laws

variable {α : Type} (schedule : Schedule)

theorem ofSchedule_eq (next : Image → α) : ofSchedule schedule next = next schedule.image := by
  simp only [Schedule.image, ofSchedule, evaluated_eq, id]

/-- The entries of a table are the digits of its number. -/
theorem word_table {n : Nat} (words : Vector UInt32 n) {i : Nat} (h : i < n) :
    word (ofWords words.toList) i = words[i].toNat := by
  have hi : i < words.toList.length := by rwa [Vector.length_toList]
  rw [word_ofWords, List.getD_eq_getElem _ _ hi, Vector.getElem_toList]

theorem image_eq : schedule.image =
    ⟨ofWords schedule.keys.toList, ofWords schedule.box₀.toList, ofWords schedule.box₁.toList,
      ofWords schedule.box₂.toList, ofWords schedule.box₃.toList⟩ := by
  simp only [Schedule.image, ofSchedule, evaluated_eq, id]

/-- The entry of a substitution table for a byte is a digit. -/
theorem word_lookup (box : Vector UInt32 256) (b : UInt8) :
    word (ofWords box.toList) b.toNat = (lookup box b).toNat :=
  word_table box b.toNat_lt

/-- **The substitution of a word.** -/
theorem substitute_image (x : UInt32) :
    substitute schedule.image x.toNat = (schedule.substitute x).toNat := by
  have htop : Nat.shiftRight x.toNat 24 = (x >>> 24).toUInt8.toNat := by
    have hx := x.toNat_lt
    change x.toNat >>> 24 = _
    rw [UInt32.toNat_toUInt8, UInt32.toNat_shiftRight]
    exact (Nat.mod_eq_of_lt (by rw [Nat.shiftRight_eq_div_pow]; omega)).symm
  have hbyte : ∀ n : UInt32, n.toNat < 32 →
      Nat.mod (Nat.shiftRight x.toNat n.toNat) 256 = (x >>> n).toUInt8.toNat := by
    intro n hn
    rw [UInt32.toNat_toUInt8, UInt32.toNat_shiftRight, Nat.mod_eq_of_lt hn]
    rfl
  have hlow : Nat.mod x.toNat 256 = x.toUInt8.toNat := (UInt32.toNat_toUInt8 x).symm
  rw [image_eq, substitute, Schedule.substitute, UInt32.toNat_add, UInt32.toNat_xor,
    UInt32.toNat_add, ← word_lookup, ← word_lookup, ← word_lookup, ← word_lookup, ← htop,
    ← hbyte 16 (by decide), ← hbyte 8 (by decide), ← hlow]
  rfl

/-- A round key is a digit. -/
theorem word_keys {i : Nat} (h : i < 18) :
    word schedule.image.keys i = schedule.keys[i].toNat := by
  rw [image_eq, word_table _ h]

/-- **The rounds with some of the keys.** -/
theorem rounds_image (indices : List (Fin 18)) (block : Block) (next : Nat → Nat → α) :
    rounds schedule.image (indices.map Fin.val) block.left.toNat block.right.toNat next =
      let last := (indices.map schedule.keys.get).foldl (fun block key => schedule.round key block)
        block
      next last.left.toNat last.right.toNat := by
  induction indices generalizing block with
  | nil => rfl
  | cons i rest ih =>
    have hmixed : Nat.xor block.left.toNat (word schedule.image.keys i) =
        (block.left ^^^ schedule.keys.get i).toNat := by
      rw [word_keys schedule i.isLt]
      exact (UInt32.toNat_xor _ _).symm
    have hswapped : Nat.xor block.right.toNat
        (substitute schedule.image (block.left ^^^ schedule.keys.get i).toNat) =
          (schedule.round (schedule.keys.get i) block).left.toNat := by
      rw [substitute_image]
      exact (UInt32.toNat_xor _ _).symm
    rw [List.map_cons, rounds, evaluated_eq, evaluated_eq, hmixed, hswapped]
    exact ih (schedule.round (schedule.keys.get i) block)

/-- **Encrypting a block.** -/
theorem encrypt_image (block : Block) (next : Nat → Nat → α) :
    encrypt schedule.image block.left.toNat block.right.toNat next =
      next (schedule.encrypt block).left.toNat (schedule.encrypt block).right.toNat := by
  have hkeys : ((List.finRange 18).take 16).map schedule.keys.get =
      schedule.keys.toList.take 16 := by
    refine List.ext_getElem (by simp) fun i hi _ => ?_
    rw [List.getElem_map, List.getElem_take, List.getElem_take, List.getElem_finRange,
      Vector.getElem_toList]
    rfl
  have hrange : List.range 16 = ((List.finRange 18).take 16).map Fin.val := by decide
  rw [encrypt, hrange, rounds_image, hkeys]
  simp only [evaluated_eq]
  rw [word_keys schedule (by decide : 17 < 18), word_keys schedule (by decide : 16 < 18)]
  exact congrArg₂ next (UInt32.toNat_xor _ _).symm (UInt32.toNat_xor _ _).symm

/-- **Storing the words of a block.** -/
theorem put_table {n : Nat} (words : Vector UInt32 n) {i : Nat} (h : 2 * i + 1 < n)
    (block : Block) :
    put (ofWords words.toList) i block.left.toNat block.right.toNat =
      ofWords (Expansion.put words i block).toList := by
  rw [put_ofWords _ (by rwa [Vector.length_toList])]
  simp [Expansion.put]

/-- Filling a table from some pair of words on. -/
theorem fill_foldl {get : Image → Nat} {set : Image → Nat → Image} {size : Nat}
    {store : Nat → Schedule → Block → Schedule}
    (hstore : ∀ i schedule block, 2 * i + 1 < size →
      set schedule.image (put (get schedule.image) i block.left.toNat block.right.toNat) =
        (store i schedule block).image)
    {count i : Nat} (h : 2 * (i + count) ≤ size) (expansion : Expansion)
    (next : Image → Nat → Nat → α) :
    fill get set count i expansion.schedule.image expansion.block.left.toNat
        expansion.block.right.toNat next =
      let filled := (List.range' i count).foldl (fun expansion i => expansion.next (store i))
        expansion
      next filled.schedule.image filled.block.left.toNat filled.block.right.toNat := by
  induction count generalizing i expansion with
  | zero => rfl
  | succ count ih =>
    rw [fill, encrypt_image, evaluated_eq, hstore _ _ _ (by omega), List.range'_succ,
      List.foldl_cons]
    exact ih (by omega) (expansion.next (store i))

/-- **Filling a table.** -/
theorem fill_image {get : Image → Nat} {set : Image → Nat → Image}
    (store : Nat → Schedule → Block → Schedule) (count : Nat)
    (hstore : ∀ i schedule block, 2 * i + 1 < 2 * count →
      set schedule.image (put (get schedule.image) i block.left.toNat block.right.toNat) =
        (store i schedule block).image)
    (expansion : Expansion) (next : Image → Nat → Nat → α) :
    fill get set count 0 expansion.schedule.image expansion.block.left.toNat
        expansion.block.right.toNat next =
      let filled := expansion.fill count store
      next filled.schedule.image filled.block.left.toNat filled.block.right.toNat := by
  rw [fill_foldl hstore (by omega), Expansion.fill, List.range_eq_range']

/-- **Expanding a hash.** -/
theorem expand_image (fold : Bytes → UInt32) (hash : Bytes) (next : Image → α) :
    expand (Schedule.keyed fold hash).image next = next (Schedule.expand fold hash).image := by
  refine
    (fill_image (fun i s block => { s with keys := Expansion.put s.keys i block }) 9 ?_
      ⟨Schedule.keyed fold hash, ⟨0, 0⟩⟩ _).trans <|
    (fill_image (fun i s block => { s with box₀ := Expansion.put s.box₀ i block }) 128 ?_
      _ _).trans <|
    (fill_image (fun i s block => { s with box₁ := Expansion.put s.box₁ i block }) 128 ?_
      _ _).trans <|
    (fill_image (fun i s block => { s with box₂ := Expansion.put s.box₂ i block }) 128 ?_
      _ _).trans <|
    fill_image (fun i s block => { s with box₃ := Expansion.put s.box₃ i block }) 128 ?_ _ _
  -- what is left is that each of the five stores is one in the image
  all_goals
    intro i schedule block h
    rw [image_eq, image_eq, put_table _ h]

/-- **What is tested is the schedule of the hash.** -/
theorem test_eq (fold : Bytes → UInt32) (hash : Bytes) (passes : Image → Bool) :
    test fold hash passes = passes (Schedule.expand fold hash).image := by
  rw [test, ofSchedule_eq, expand_image]

/-- A block passes if it is encrypted to the other one. -/
theorem encryptsTo_iff {block result : Block} :
    encryptsTo schedule.image block result = true ↔ schedule.encrypt block = result := by
  rw [encryptsTo, encrypt_image, Bool.and_eq_true, beq_iff_eq, beq_iff_eq, UInt32.toNat_inj,
    UInt32.toNat_inj]
  constructor
  · rintro ⟨hleft, hright⟩
    exact congrArg₂ Block.mk hleft hright
  · intro h
    rw [h]
    exact ⟨rfl, rfl⟩

/-- A byte string passes if it is encrypted to the other one. -/
theorem encryptsBlocksTo_iff {data result : Bytes} :
    encryptsBlocksTo schedule.image data result = true ↔
      schedule.encryptBlocks data = result := by
  unfold Schedule.encryptBlocks
  induction data using mapBlocks.induct schedule.encrypt generalizing result with
  | case1 a b c d e g h i rest ih =>
    have hblock := encrypt_image schedule ⟨Bytes.u32 a b c d, Bytes.u32 e g h i⟩ fun left right =>
      Bytes.ofU32 (.ofNat left) ++ Bytes.ofU32 (.ofNat right) == result.take 8
    rw [encryptsBlocksTo, hblock, UInt32.ofNat_toNat, UInt32.ofNat_toNat, Bool.and_eq_true,
      beq_iff_eq, ih, mapBlocks]
    constructor
    · rintro ⟨hfront, hrest⟩
      rw [hrest, hfront, List.take_append_drop]
    · rintro rfl
      exact ⟨rfl, rfl⟩
  | case2 data hshort =>
    rw [encryptsBlocksTo, beq_iff_eq, mapBlocks]
    · exact hshort
    · exact hshort

/-- A datagram passes only if it is encrypted to the other one. -/
theorem encryptPacket_eq {header : Nat} {datagram result : Bytes}
    (h : encryptsPacketTo schedule.image header datagram result = true) :
    schedule.encryptPacket header datagram = result := by
  simp only [encryptsPacketTo, Bool.and_eq_true, beq_iff_eq, encryptsBlocksTo_iff] at h
  obtain ⟨⟨hfront, hregion⟩, hrest⟩ := h
  rw [Schedule.encryptPacket, onRegion, hregion, hfront, hrest, ← List.drop_drop,
    List.append_assoc, List.take_append_drop, List.take_append_drop]

end Laws

/-- **What a key does to a datagram** can be tested. -/
theorem encryptPacket_key {key : Key} {header : Nat} {datagram result : Bytes}
    (h : test foldSigned key.scheduleHash
      (fun image => image.encryptsPacketTo header datagram result) = true) :
    key.schedule.encryptPacket header datagram = result := by
  rw [test_eq] at h
  exact encryptPacket_eq _ h

end Image

end Cipher

end ZoneRelay
