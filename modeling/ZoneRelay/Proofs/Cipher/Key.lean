import Mathlib.Algebra.Group.Nat.Defs
import Mathlib.Data.List.DropRight
import Mathlib.Logic.Function.Iterate
import ZoneRelay.Cipher.Key
import ZoneRelay.Proofs.Text.Utf8

/-!
# Keys as texts and as words

A key is twenty bytes. It is written as a text, and counted up as five words; both ways lead back.

| from | to | what is lost |
|---|---|---|
| a key | its words | nothing (`ZoneRelay.Cipher.Key.ofWords_words`) |
| five words | their key | nothing (`ZoneRelay.Cipher.Key.words_ofWords`) |
| a text | its key | what is behind twenty bytes, and how many zeros there are at the end |
| a key | its text | bytes that are no UTF-8, and the zeros at the end |

The zeros at the end are what fills a short text up, and the text of a key leaves them out. **A zero
in front of another byte is not among them**: it belongs to the bytes of the key that count
(`ZoneRelay.Cipher.Key.significant`), and so to the text. Texts and keys stand for each other
wherever none of the things in the last column is there to be lost
(`ZoneRelay.Cipher.Key.conversions_exact`).

At a change of zone a key is taken apart into words and put together again. Nothing is lost on the
way, so after any number of changes only the last word is another.
-/

namespace ZoneRelay

namespace Bytes

/-- The words that bytes are made of are written as these bytes. -/
theorem ofWords_u32At {data : Bytes} {count : Nat} (h : data.length = 4 * count) :
    ofWords (List.ofFn fun i : Fin count => u32At data (4 * i)) = data := by
  induction count generalizing data with
  | zero =>
    rw [List.length_eq_zero_iff.mp h]
    rfl
  | succ count ih =>
    obtain ⟨a, b, c, d, rest, rfl⟩ : ∃ a b c d rest, data = a :: b :: c :: d :: rest := by
      rcases data with _ | ⟨a, _ | ⟨b, _ | ⟨c, _ | ⟨d, rest⟩⟩⟩⟩
      case cons.cons.cons.cons => exact ⟨a, b, c, d, rest, rfl⟩
      all_goals
        simp only [List.length_nil, List.length_cons] at h
        omega
    have hlength : rest.length = 4 * count := by
      simp only [List.length_cons] at h
      omega
    have hfirst : ofU32 (u32At (a :: b :: c :: d :: rest) 0) = [a, b, c, d] := ofU32_u32 a b c d
    have hrest : ∀ i : Fin count,
        u32At (a :: b :: c :: d :: rest) (4 * (i.succ : Nat)) = u32At rest (4 * i) :=
      fun _ => rfl
    rw [List.ofFn_succ, ofWords]
    simp only [hrest, Fin.val_zero, Nat.mul_zero, hfirst, ih hlength]
    rfl

end Bytes

namespace Cipher

namespace Key

theorem length_toBytes (key : Key) : key.toBytes.length = 20 := Vector.length_toList

/-- Keys with the same bytes are the same. -/
theorem toBytes_injective {key other : Key} (h : key.toBytes = other.toBytes) : key = other := by
  obtain ⟨bytes⟩ := key
  obtain ⟨bytes'⟩ := other
  exact congrArg Key.mk (Vector.toList_inj.mp h)

/-! ### Words -/

/-- **A key is made of its words.** -/
@[simp] theorem ofWords_words (key : Key) : ofWords key.words = key := by
  have hwords : key.words.toList = List.ofFn fun i : Fin 5 => Bytes.u32At key.toBytes (4 * i) := by
    rw [words, Vector.toList_ofFn]
  apply toBytes_injective
  rw [ofWords, toBytes_ofBytes (by simp), hwords]
  exact Bytes.ofWords_u32At key.length_toBytes

/-- After a number of changes the last word has grown by twice that number; the others are the
same. -/
theorem words_iterate_incremented (key : Key) (count : Nat) :
    (incremented^[count] key).words =
      key.words.set 4 (getElem key.words 4 (by decide) + 2 * UInt32.ofNat count) (by decide) := by
  induction count with
  | zero => simp
  | succ count ih =>
    have hnext : 2 * UInt32.ofNat (count + 1) = 2 * UInt32.ofNat count + 2 := by
      rw [UInt32.ofNat_add, UInt32.mul_add]
      rfl
    rw [Function.iterate_succ_apply', words_incremented, ih, hnext, Vector.set_set,
      Vector.getElem_set_self, UInt32.add_assoc]

/-- **Within fewer than `2 ^ 31` changes a key does not come back.** -/
theorem iterate_incremented_ne (key : Key) {count : Nat} (hpos : 0 < count)
    (hlt : count < 2 ^ 31) : incremented^[count] key ≠ key := by
  intro heq
  have hwords := congrArg (fun key : Key => getElem key.words 4 (by decide)) heq
  simp only [words_iterate_incremented, Vector.getElem_set_self] at hwords
  have hzero : 2 * UInt32.ofNat count = 0 := by simpa using hwords
  have hnat := congrArg UInt32.toNat hzero
  rw [UInt32.toNat_mul, UInt32.toNat_ofNat', UInt32.toNat_ofNat] at hnat
  simp only [UInt32.toNat_zero] at hnat
  omega

/-! ### Texts -/

/-- The bytes of a key up to the last one that is not zero. -/
def significant (key : Key) : Bytes := key.toBytes.rdropWhile (· == 0)

/-- Zeros at the end make no difference to the key. -/
theorem ofBytes_append_zeros (data : Bytes) (count : Nat) :
    ofBytes (data ++ Bytes.zeros count) = ofBytes data := by
  refine congrArg Key.mk (Vector.ext fun i hi => ?_)
  rw [Vector.getElem_ofFn, Vector.getElem_ofFn, List.getD_eq_getElem?_getD,
    List.getD_eq_getElem?_getD, List.getElem?_append, Bytes.zeros, List.getElem?_replicate]
  split
  · rfl
  · rename_i hpast
    rw [List.getElem?_eq_none (Nat.le_of_not_lt hpast)]
    split <;> rfl

/-- **The significant bytes of a key determine it.** -/
theorem ofBytes_significant (key : Key) : ofBytes key.significant = key := by
  obtain ⟨count, hzeros⟩ : ∃ count, key.toBytes.rtakeWhile (· == 0) = Bytes.zeros count := by
    refine ⟨_, List.eq_replicate_of_mem fun b hb => ?_⟩
    simpa using List.mem_rtakeWhile_imp hb
  have hsplit : key.significant ++ Bytes.zeros count = key.toBytes := by
    rw [← hzeros]
    exact List.rdropWhile_append_rtakeWhile
  apply toBytes_injective
  rw [← ofBytes_append_zeros _ count, hsplit, toBytes_ofBytes key.length_toBytes]

/-- **Bytes that fit into a key are its significant ones**, unless the last of them is zero. -/
theorem significant_ofBytes {data : Bytes} (hlength : data.length ≤ 20)
    (hlast : data.getLast? ≠ some 0) : (ofBytes data).significant = data := by
  have hbytes : (ofBytes data).toBytes = data ++ Bytes.zeros (20 - data.length) := by
    rw [← ofBytes_append_zeros data (20 - data.length), toBytes_ofBytes]
    rw [List.length_append, Bytes.length_zeros]
    omega
  rw [significant, hbytes]
  generalize 20 - data.length = count
  induction count with
  | zero =>
    rw [Bytes.zeros, List.replicate_zero, List.append_nil, List.rdropWhile_eq_self_iff]
    intro hne hzero
    rw [List.getLast?_eq_some_getLast hne] at hlast
    exact hlast (congrArg some (beq_iff_eq.mp hzero))
  | succ count ih =>
    rw [Bytes.zeros, List.replicate_succ', ← List.append_assoc,
      List.rdropWhile_concat_pos _ _ _ rfl]
    exact ih

/-- The text of a key is what its significant bytes spell. -/
theorem toText_eq (key : Key) : key.toText = Utf8.decodeLossy key.significant := rfl

/-- **Keys are converted without loss.**

* A text of at most twenty bytes, the last of which is not zero, is the text of its key.
* A key whose bytes up to the last that is not zero are those of a text is the key of its text.
* A key is made of its words, and a key made of words has these.
* After any number of changes of zone only the last word is another one: it has grown by twice that
  number, modulo `2 ^ 32`. The key is the one made of these words. -/
theorem conversions_exact :
    (∀ text : String, (Utf8.encode text).length ≤ 20 → (Utf8.encode text).getLast? ≠ some 0 →
      (ofText text).toText = text) ∧
    (∀ key : Key, (∃ text, Utf8.encode text = key.significant) → ofText key.toText = key) ∧
    (∀ key : Key, ofWords key.words = key) ∧
    (∀ words : Vector UInt32 5, (ofWords words).words = words) ∧
    ∀ (key : Key) (count : Nat),
      (incremented^[count] key).words = key.words.set 4
        (getElem key.words 4 (by decide) + UInt32.ofNat (2 * count)) (by decide) ∧
      incremented^[count] key = ofWords (key.words.set 4
        (getElem key.words 4 (by decide) + UInt32.ofNat (2 * count)) (by decide)) := by
  refine ⟨?_, ?_, ofWords_words, words_ofWords, ?_⟩
  · intro text hlength hlast
    rw [toText_eq, ofText, significant_ofBytes hlength hlast, Utf8.decodeLossy_encode]
  · rintro key ⟨text, htext⟩
    rw [toText_eq, ← htext, Utf8.decodeLossy_encode, ofText, htext, ofBytes_significant]
  · intro key count
    have hwords : (incremented^[count] key).words = key.words.set 4
        (getElem key.words 4 (by decide) + UInt32.ofNat (2 * count)) (by decide) := by
      rw [words_iterate_incremented, UInt32.ofNat_mul]
      rfl
    exact ⟨hwords, by rw [← hwords, ofWords_words]⟩

/-- A text with a zero inside, and a key with its four bytes. -/
theorem conversions_exact_zero :
    (Utf8.encode "a\x00é").length ≤ 20 ∧ (Utf8.encode "a\x00é").getLast? ≠ some 0 ∧
      (ofText "a\x00é").toText = "a\x00é" ∧
      Utf8.encode "a\x00é" = (ofBytes [0x61, 0, 0xC3, 0xA9]).significant ∧
      ofText (ofBytes [0x61, 0, 0xC3, 0xA9]).toText = ofBytes [0x61, 0, 0xC3, 0xA9] := by
  obtain ⟨htext, hkey, -⟩ := conversions_exact
  have hencode : Utf8.encode "a\x00é" = [0x61, 0, 0xC3, 0xA9] := by decide
  have hlength : (Utf8.encode "a\x00é").length ≤ 20 := by
    rw [hencode]
    decide
  have hlast : (Utf8.encode "a\x00é").getLast? ≠ some 0 := by
    rw [hencode]
    decide
  have hsignificant : Utf8.encode "a\x00é" = (ofBytes [0x61, 0, 0xC3, 0xA9]).significant := by
    rw [hencode]
    decide
  exact ⟨hlength, hlast, htext _ hlength hlast, hsignificant, hkey _ ⟨_, hsignificant⟩⟩

end Key

end Cipher

end ZoneRelay
