import ZoneRelay.Bus.Frame
import ZoneRelay.Proofs.Json.Reading
import ZoneRelay.Proofs.Net.Address

/-!
# Frames of the bus are read back

A packet comes out of its frame as it went in, in both formats
(`ZoneRelay.Bus.decodeFrame_encodeFrame`). The two formats lose different things:

| format | what a packet has to keep to |
|---|---|
| binary | its client's address has no scope, and its data are shorter than `2 ^ 64` |
| JSON | nothing |

A reader of the binary form takes its field from the front and leaves the rest, so each is shown
to undo its writer **in front of any rest**. The JSON form is a value, and what is written of it is
read back as that value; what remains is to find the fields by their names.
-/

namespace ZoneRelay

/-- Whether an address has no scope. -/
def Address.Unscoped : Address → Prop
  | .v4 .. => True
  | .v6 _ scope _ => scope = 0

namespace Bus

namespace Binary

/-! ### Numbers -/

theorem take?_append {front : Bytes} {count : Nat} (h : front.length = count) (rest : Bytes) :
    take? count (front ++ rest) = some (front, rest) := by
  subst h
  rw [take?, if_neg (by rw [List.length_append]; omega), List.take_left, List.drop_left]

theorem u16?_ofU16 (w : UInt16) (rest : Bytes) :
    u16? (Bytes.ofU16 w ++ rest) = some (w, rest) := by
  rw [u16?, take?_append (Bytes.length_ofU16 w), Option.map_some]
  exact congrArg (fun w => some (w, rest)) (Bytes.u16_ofU16 w)

theorem u32?_ofU32 (w : UInt32) (rest : Bytes) :
    u32? (Bytes.ofU32 w ++ rest) = some (w, rest) := by
  rw [u32?, take?_append (Bytes.length_ofU32 w), Option.map_some]
  exact congrArg (fun w => some (w, rest)) (Bytes.u32_ofU32 w)

/-- A length is read back from its lower and its upper half. -/
theorem length?_ofU64 {n : Nat} (hn : n < UInt64.size) (rest : Bytes) :
    length? (Bytes.ofU64 n.toUInt64 ++ rest) = some (n, rest) := by
  have hlow : Bytes.u32At (Bytes.ofU64 n.toUInt64) 0 = n.toUInt64.toUInt32 :=
    Bytes.u32_ofU32 _
  have hhigh : Bytes.u32At (Bytes.ofU64 n.toUInt64) 4 = (n.toUInt64 >>> 32).toUInt32 :=
    Bytes.u32_ofU32 _
  have hnat : n.toUInt64.toNat = n := UInt64.toNat_ofNat_of_lt' hn
  have hsplit : n.toUInt64.toUInt32.toNat + UInt32.size * (n.toUInt64 >>> 32).toUInt32.toNat =
      n := by
    rw [UInt64.toNat_toUInt32, UInt64.toNat_toUInt32, UInt64.toNat_shiftRight, hnat]
    show n % 4294967296 + 4294967296 * (n >>> 32 % 4294967296) = n
    rw [Nat.shiftRight_eq_div_pow]
    have hn' : n < 18446744073709551616 := hn
    omega
  rw [length?, take?_append (Bytes.length_ofU64 _), Option.map_some]
  simp only [hlow, hhigh, hsplit]

/-! ### Addresses -/

/-- The bytes of a group in network order. -/
def octets (g : UInt16) : Bytes := [(g >>> 8).toUInt8, g.toUInt8]

theorem length_octets (groups : List UInt16) :
    (groups.flatMap octets).length = 2 * groups.length := by
  induction groups with
  | nil => rfl
  | cons g rest ih =>
    rw [List.flatMap_cons, List.length_append, ih, List.length_cons]
    show 2 + _ = _
    omega

theorem u16_octets {groups : List UInt16} {i : Nat} (hi : i < groups.length) :
    Bytes.u16 ((groups.flatMap octets).getD (2 * i + 1) 0)
      ((groups.flatMap octets).getD (2 * i) 0) = groups[i] := by
  induction groups generalizing i with
  | nil => cases hi
  | cons g rest ih =>
    rcases i with _ | i
    · exact Bytes.u16_ofU16 g
    · exact ih (Nat.lt_of_succ_lt_succ hi)

theorem groups_octets (groups : Vector UInt16 8) :
    Binary.groups (groups.toList.flatMap octets) = groups := by
  refine Vector.ext fun i hi => ?_
  have hlist : i < groups.toList.length := by rwa [Vector.length_toList]
  rw [Binary.groups, Vector.getElem_ofFn, u16_octets hlist, Vector.getElem_toList]

/-- **An address without a scope is read back.** -/
theorem address?_address {client : Address} (h : client.Unscoped) (rest : Bytes) :
    address? (address client ++ rest) = some (client, rest) := by
  cases client with
  | v4 a b c d port =>
    have hfour : ∀ rest, take? 4 ([a, b, c, d] ++ rest) = some ([a, b, c, d], rest) :=
      take?_append rfl
    rw [address, List.append_assoc, List.append_assoc, address?, u32?_ofU32]
    simp only [Option.bind_eq_bind, Option.bind_some, if_true, hfour, u16?_ofU16]
    rfl
  | v6 groups scope port =>
    obtain rfl : scope = 0 := h
    have hlength : (groups.toList.flatMap octets).length = 16 := by
      rw [length_octets, Vector.length_toList]
    have htext : address (.v6 groups 0 port) =
        Bytes.ofU32 1 ++ groups.toList.flatMap octets ++ Bytes.ofU16 port := rfl
    rw [htext, List.append_assoc, List.append_assoc, address?, u32?_ofU32]
    simp only [Option.bind_eq_bind, Option.bind_some, if_neg (by decide : (1 : UInt32) ≠ 0),
      if_true, take?_append hlength, u16?_ofU16, groups_octets]
    rfl

/-! ### Packets -/

theorem message?_message {m : Message} (h : m.data.length < UInt64.size) (rest : Bytes) :
    message? (message m ++ rest) = some (m, rest) := by
  rw [message, List.append_assoc, List.append_assoc, List.append_assoc, List.append_assoc,
    message?, u16?_ofU16]
  simp only [Option.bind_eq_bind, Option.bind_some, u16?_ofU16, length?_ofU64 h,
    take?_append rfl]
  rfl

/-- **A packet is read back from its binary form.** -/
theorem decode?_encode {routed : Routed} (hclient : routed.client.Unscoped)
    (hdata : routed.message.data.length < UInt64.size) : decode? (encode routed) = some routed := by
  have hmessage := message?_message hdata []
  rw [List.append_nil] at hmessage
  rw [encode, List.append_assoc, decode?, address?_address hclient]
  simp only [Option.bind_eq_bind, Option.bind_some, u32?_ofU32, hmessage]
  rfl

end Binary

namespace Record

open Json

/-! ### Records -/

/-- The field of a name is found if no other field has that name. -/
theorem single?_object {names : List String} {values : List Value} {name : String} {value : Value}
    {front : List (Option String × Value)} (hfront : ∀ field ∈ front, field.1 ≠ some name)
    (hnames : name ∉ names) :
    Value.single? (front ++ (some name, value) :: (names.map some).zip values) name =
      some value := by
  have hnone : front.filter (fun field => field.1 == some name) = [] := by
    refine List.filter_eq_nil_iff.mpr ?_
    intro field hfield heq
    exact hfront field hfield (eq_of_beq heq)
  have hrest : ((names.map some).zip values).filter (fun field => field.1 == some name) = [] := by
    refine List.filter_eq_nil_iff.mpr ?_
    rintro ⟨other, v⟩ hfield heq
    obtain ⟨n, hn, rfl⟩ := List.mem_map.mp (List.of_mem_zip hfield).1
    obtain rfl : n = name := Option.some.inj (eq_of_beq heq)
    exact hnames hn
  rw [Value.single?, List.filter_append, List.filter_cons, hnone, hrest]
  simp

/-- **A record is taken apart by its names**, if no name occurs twice. -/
theorem record?_object {names : List String} {values : List Value} (hnames : names.Nodup)
    (hlength : names.length = values.length) :
    (object names values).record? names = some values := by
  have hsome : ((names.map some).zip values).all (·.1.isSome) = true := by
    refine List.all_eq_true.mpr ?_
    rintro ⟨name, v⟩ hfield
    obtain ⟨n, _, rfl⟩ := List.mem_map.mp (List.of_mem_zip hfield).1
    rfl
  have hfound : ∀ (front : List (Option String × Value)),
      (∀ field ∈ front, ∀ name ∈ names, field.1 ≠ some name) →
      names.mapM (Value.single? (front ++ (names.map some).zip values)) = some values := by
    clear hsome
    induction names generalizing values with
    | nil =>
      rintro _ _
      rw [List.length_eq_zero_iff.mp hlength.symm]
      rfl
    | cons name names ih =>
      intro front hfront
      rcases values with _ | ⟨value, values⟩
      · cases hlength
      · obtain ⟨hname, hrest⟩ := List.nodup_cons.mp hnames
        have hothers := ih hrest (Nat.succ.inj hlength) (front ++ [(some name, value)]) (by
          intro field hfield other hother
          rcases List.mem_append.mp hfield with hfield | hfield
          · exact hfront field hfield other (List.mem_cons_of_mem _ hother)
          · rw [List.mem_singleton.mp hfield]
            rintro ⟨⟩
            exact hname hother)
        rw [List.append_assoc, List.singleton_append] at hothers
        rw [List.map_cons, List.zip_cons_cons, List.mapM_cons, hothers,
          single?_object (fun field hfield => hfront field hfield name List.mem_cons_self) hname]
        rfl
  rw [object, Value.record?, if_pos hsome]
  exact hfound [] fun field hfield => nomatch hfield

theorem plain_object {names : List String} {values : List Value} (h : ∀ v ∈ values, Plain v) :
    Plain (object names values) := by
  refine .object ?_ ?_
  · rintro ⟨name, v⟩ hfield
    obtain ⟨n, _, rfl⟩ := List.mem_map.mp (List.of_mem_zip hfield).1
    rfl
  · rintro ⟨name, v⟩ hfield
    exact h v (List.of_mem_zip hfield).2

/-! ### Packets -/

theorem below?_natural {n bound : Nat} (h : n < bound) : (Value.natural n).below? bound = some n :=
  if_pos h

theorem message?_ofMessage (m : Message) : message? (ofMessage m) = some m := by
  have hdata : (m.data.map fun b => Value.natural b.toNat).mapM
      (fun b => b.below? UInt8.size) = some (m.data.map UInt8.toNat) := by
    induction m.data with
    | nil => rfl
    | cons b rest ih =>
      rw [List.map_cons, List.mapM_cons, below?_natural b.toNat_lt, ih]
      rfl
  have hbytes : (m.data.map UInt8.toNat).map Nat.toUInt8 = m.data := by
    rw [List.map_map]
    exact (List.map_congr_left fun b _ => UInt8.ofNat_toNat).trans (List.map_id _)
  rw [message?, ofMessage, record?_object (by decide) rfl]
  simp only [below?_natural m.kind.toNat_lt, below?_natural m.size.toNat_lt,
    below?_natural m.sequence.toNat_lt, Value.list?, hdata, hbytes, Option.bind_eq_bind,
    Option.bind_some]
  simp

theorem routed?_ofRouted (routed : Routed) : routed? (ofRouted routed) = some routed := by
  rw [routed?, ofRouted, record?_object (by decide) rfl]
  simp only [Value.text?, Address.ofText?_text, below?_natural routed.character.toNat_lt,
    message?_ofMessage, Option.bind_eq_bind, Option.bind_some]
  simp

theorem plain_ofRouted (routed : Routed) : Plain (ofRouted routed) := by
  have hlt : ∀ {n bound : Nat}, n < bound → bound ≤ UInt64.size → Plain (.natural n) :=
    fun h hle => .natural (Nat.lt_of_lt_of_le h hle)
  have hmessage : Plain (ofMessage routed.message) := by
    refine plain_object ?_
    simp only [List.mem_cons, List.not_mem_nil, or_false]
    rintro _ (rfl | rfl | rfl | rfl)
    · exact hlt routed.message.kind.toNat_lt (by decide)
    · exact hlt routed.message.size.toNat_lt (by decide)
    · exact hlt routed.message.sequence.toNat_lt (by decide)
    · refine .list ?_
      intro v hv
      obtain ⟨b, _, rfl⟩ := List.mem_map.mp hv
      exact hlt b.toNat_lt (by decide)
  refine plain_object ?_
  simp only [List.mem_cons, List.not_mem_nil, or_false]
  rintro _ (rfl | rfl | rfl)
  · exact .text _
  · exact hlt routed.character.toNat_lt (by decide)
  · exact hmessage

/-- **A packet is read back from its JSON form.** -/
theorem decode?_encode (routed : Routed) : decode? (encode routed) = some routed := by
  rw [decode?, encode, read?_write (plain_ofRouted routed)]
  exact routed?_ofRouted routed

end Record

theorem decodeFrame_byte (format : Format) (body : Bytes) :
    decodeFrame (format.byte :: body) =
      (decodeBody format body).map fun routed => (routed, format) := by
  rw [decodeFrame, Format.ofByte?_byte]

/-- **A packet is read back from its frame**, and with it the format. -/
theorem decodeFrame_encodeFrame {routed : Routed} (hclient : routed.client.Unscoped)
    (hdata : routed.message.data.length < UInt64.size) (format : Format) :
    decodeFrame (encodeFrame format routed) = .ok (routed, format) := by
  cases format with
  | binary =>
    have hframe : encodeFrame .binary routed = Format.binary.byte :: Binary.encode routed := rfl
    rw [hframe, decodeFrame_byte, decodeBody, Binary.decode?_encode hclient hdata]
    rfl
  | json =>
    have hframe : encodeFrame .json routed = Format.json.byte :: Record.encode routed := rfl
    rw [hframe, decodeFrame_byte, decodeBody, Record.decode?_encode]
    rfl

end Bus

end ZoneRelay
