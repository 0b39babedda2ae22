import ZoneRelay.Proofs.Frame.Framing

/-!
# What stands in front of a region

The first four bytes of a region hold a type of nine bits (`ZoneRelay.Frame.kindOf`), a length
(`ZoneRelay.Frame.declared`) and a sequence number (`ZoneRelay.Frame.sequenceOf`), and nothing
else. Three questions decide in turn what a reader makes of them:

| the region | the reader | statement |
|---|---|---|
| is shorter than that, or declares no length | stops at the end | `ZoneRelay.Frame.front_complete_iff` |
| has the declared bytes, or is of login type | gives what is there of them | `ZoneRelay.Frame.front_packet_iff` |
| has fewer | stops, and says what is missing | `ZoneRelay.Frame.front_truncated_iff` |

The reader takes seven bits for a number of units of two bytes. The lowest of their eight bits
belongs to the type and counts as zero, so a length is a multiple of four
(`ZoneRelay.Frame.length_units`), as that of a frame is. Hence a sub-packet that is as long as it
declares **is framed again as it lay** (`ZoneRelay.Frame.encode_of_front`), every bit of it.
-/

namespace ZoneRelay

namespace Frame

/-! ### The fields -/

/-- The type of the sub-packet in front of a region. -/
def kindOf (region : Bytes) : UInt16 := Bytes.u16At region 0 &&& typeMask

/-- The sequence number of the sub-packet in front of a region. -/
def sequenceOf (region : Bytes) : UInt16 := Bytes.u16At region 2

/-- The length that the sub-packet in front of a region declares. -/
def declared (region : Bytes) : Nat := (Bytes.byteAt region 1 &&& 0xFE).toNat * 2

/-- The bits of the length are those of the byte, with the lowest one zero. -/
theorem lengthMask_eq (b : UInt8) : b &&& (0xFE : UInt8) = (b >>> 1) <<< 1 := by
  refine Bytes.byte_ext fun i hi => ?_
  rw [UInt8.toBitVec_and, BitVec.getLsbD_and, SubPacket.getLsbD_lengthMask i hi,
    UInt8.toBitVec_shiftLeft, UInt8.toBitVec_shiftRight]
  cases i with
  | zero => simp
  | succ i => simp [hi, Nat.add_comm 1 i]

/-- **A length is declared in units of four bytes**, and at most 127 of them. -/
theorem length_units (b : UInt8) :
    (b &&& (0xFE : UInt8)).toNat * 2 = 4 * (b >>> 1).toNat ∧ (b >>> 1).toNat < 128 := by
  have hbyte := b.toNat_lt
  have hunits : (b >>> 1).toNat = b.toNat / 2 := by
    rw [UInt8.toNat_shiftRight]
    exact Nat.shiftRight_eq_div_pow _ 1
  have hdouble : ((b >>> 1) <<< 1).toNat = (b >>> 1).toNat * 2 % 256 := by
    rw [UInt8.toNat_shiftLeft]
    exact congrArg (· % 256) (Nat.shiftLeft_eq _ 1)
  rw [lengthMask_eq, hdouble]
  omega

theorem declared_bounds {region : Bytes} (h : declared region ≠ 0) :
    4 ≤ declared region ∧ declared region ≤ 508 := by
  obtain ⟨hunits, hbound⟩ := length_units (Bytes.byteAt region 1)
  rw [declared, hunits] at h ⊢
  omega

/-- Two bytes of a word that is cut to nine bits: the low one is kept. -/
theorem toUInt8_kind (a b : UInt8) : (Bytes.u16 a b &&& typeMask).toUInt8 = a := by
  refine Bytes.byte_ext fun i hi => ?_
  rw [UInt16.toBitVec_toUInt8, BitVec.getLsbD_setWidth, UInt16.toBitVec_and, BitVec.getLsbD_and,
    SubPacket.getLsbD_typeMask i (by omega)]
  have hnine : i < 9 := by omega
  have hword : i < 16 := by omega
  simp [Bytes.u16, hi, hnine, hword]

/-- The high one is the ninth bit and the length above it. -/
theorem high_kind (a b : UInt8) :
    (((Bytes.u16 a b &&& typeMask) >>> 8) &&& 1).toUInt8 ||| ((b >>> 1) <<< 1) = b := by
  have hninth := SubPacket.getLsbD_typeMask 8 (by decide)
  refine Bytes.byte_ext fun i hi => ?_
  rw [UInt8.toBitVec_or, BitVec.getLsbD_or, UInt8.toBitVec_shiftLeft, UInt8.toBitVec_shiftRight,
    UInt16.toBitVec_toUInt8, BitVec.getLsbD_setWidth, UInt16.toBitVec_and, UInt16.toBitVec_shiftRight]
  cases i with
  | zero =>
    simp [Bytes.u16, hninth]
  | succ i =>
    have hword : i + 1 < 16 := by omega
    simp [hi, Nat.add_comm 1 i]

/-! ### What the reader does -/

/-- **The front of a region**, by its fields. -/
theorem front_eq (region : Bytes) :
    front region =
      if region.length < subHeaderSize ∨ declared region = 0 then .stop .complete
      else if declared region ≤ region.length ∨ kindOf region = loginType then
        .packet ⟨kindOf region, sequenceOf region, region.take (declared region)⟩
      else .stop (.truncated (kindOf region) (declared region) region.length) := by
  match region with
  | [] | [_] | [_, _] | [_, _, _] => rfl
  | b₀ :: b₁ :: b₂ :: b₃ :: rest =>
    have hlong : ¬ (b₀ :: b₁ :: b₂ :: b₃ :: rest).length < subHeaderSize := by
      simp [subHeaderSize]
    have hdeclared : (b₁ &&& 0xFE).toNat * 2 = declared (b₀ :: b₁ :: b₂ :: b₃ :: rest) := rfl
    have hkind : Bytes.u16 b₀ b₁ &&& typeMask = kindOf (b₀ :: b₁ :: b₂ :: b₃ :: rest) := rfl
    have hsequence : Bytes.u16 b₂ b₃ = sequenceOf (b₀ :: b₁ :: b₂ :: b₃ :: rest) := rfl
    rw [front]
    simp only [hdeclared, hkind, hsequence, hlong, false_or]
    generalize (b₀ :: b₁ :: b₂ :: b₃ :: rest) = region
    split
    · rfl
    split
    case isTrue hle => rw [if_pos (Or.inl hle)]
    case isFalse hover =>
      -- what runs over the end takes all there is, if it is a login request
      rw [List.take_of_length_le (Nat.le_of_not_le hover)]
      simp only [hover, false_or]

theorem front_complete_iff {region : Bytes} :
    front region = .stop .complete ↔ region.length < subHeaderSize ∨ declared region = 0 := by
  rw [front_eq]
  split
  case isTrue h => exact iff_of_true rfl h
  case isFalse h =>
    refine iff_of_false ?_ h
    split <;> exact nofun

theorem front_packet_iff {region : Bytes} {raw : RawPacket} :
    front region = .packet raw ↔
      subHeaderSize ≤ region.length ∧ declared region ≠ 0 ∧
        (declared region ≤ region.length ∨ kindOf region = loginType) ∧
        raw = ⟨kindOf region, sequenceOf region, region.take (declared region)⟩ := by
  rw [front_eq]
  split
  case isTrue h =>
    refine iff_of_false nofun ?_
    rintro ⟨hlong, hsome, -⟩
    exact h.elim (Nat.not_lt.mpr hlong) hsome
  case isFalse h =>
    obtain ⟨hlong, hsome⟩ := not_or.mp h
    split
    case isTrue hgives =>
      constructor
      · rintro ⟨⟩
        exact ⟨Nat.le_of_not_lt hlong, hsome, hgives, rfl⟩
      · rintro ⟨-, -, -, rfl⟩
        rfl
    case isFalse hstops => exact iff_of_false nofun fun h => hstops h.2.2.1

theorem front_truncated_iff {region : Bytes} {kind : UInt16} {size remaining : Nat} :
    front region = .stop (.truncated kind size remaining) ↔
      subHeaderSize ≤ region.length ∧ kindOf region ≠ loginType ∧
        region.length < declared region ∧
        kind = kindOf region ∧ size = declared region ∧ remaining = region.length := by
  rw [front_eq]
  split
  case isTrue h =>
    refine iff_of_false nofun ?_
    rintro ⟨hlong, -, hover, -⟩
    omega
  case isFalse h =>
    obtain ⟨hlong, hsome⟩ := not_or.mp h
    split
    case isTrue hgives =>
      refine iff_of_false nofun ?_
      rintro ⟨-, hother, hover, -⟩
      exact hgives.elim (Nat.not_le.mpr hover) hother
    case isFalse hstops =>
      obtain ⟨hover, hother⟩ := not_or.mp hstops
      constructor
      · rintro ⟨⟩
        exact ⟨Nat.le_of_not_lt hlong, hother, Nat.lt_of_not_le hover, rfl, rfl, rfl⟩
      · rintro ⟨-, -, -, rfl, rfl, rfl⟩
        rfl

/-- A region never stops without an end. -/
theorem front_ne_running (region : Bytes) : front region ≠ .stop .running := by
  rw [front_eq]
  split
  · exact nofun
  · split <;> exact nofun

/-- **The front of a region of login type** is whatever is there of the declared length. -/
theorem front_login {region : Bytes} (hlong : subHeaderSize ≤ region.length)
    (hkind : Bytes.u16At region 0 &&& typeMask = loginType) :
    front region = if declared region = 0 then .stop .complete
      else .packet ⟨loginType, Bytes.u16At region 2, region.take (declared region)⟩ := by
  have hlogin : kindOf region = loginType := hkind
  rw [front_eq, hlogin]
  simp only [Nat.not_lt.mpr hlong, false_or, or_true, if_true]
  rfl

/-! ### Framed again -/

/-- **Four bytes with as many as they declare behind them are a frame.** -/
theorem encode_fields (b₀ b₁ b₂ b₃ : UInt8) (payload : Bytes)
    (h : 4 + payload.length = 4 * (b₁ >>> 1).toNat) :
    (SubPacket.mk (Bytes.u16 b₀ b₁ &&& typeMask) (Bytes.u16 b₂ b₃) payload).encode
      (Bytes.u16 b₂ b₃) = .ok (b₀ :: b₁ :: b₂ :: b₃ :: payload) := by
  obtain ⟨-, hbound⟩ := length_units b₁
  have hframe : Bytes.roundUp4 (4 + payload.length) = 4 + payload.length := by
    rw [Bytes.roundUp4]
    omega
  have hunits : ((4 + payload.length) / 4).toUInt8 = b₁ >>> 1 := by
    rw [h, Nat.mul_div_cancel_left _ (by decide)]
    exact UInt8.ofNat_toNat
  have hfilled : 4 + payload.length - 4 - payload.length = 0 := by omega
  have hfits : ¬ maxFrameSize < 4 + payload.length := by
    rw [maxFrameSize]
    omega
  simp only [SubPacket.encode, SubPacket.frame, SubPacket.frameLength, subHeaderSize, hframe,
    if_neg hfits, hunits, toUInt8_kind, high_kind, Bytes.ofU16_u16, hfilled, Bytes.zeros,
    List.replicate_zero, List.append_nil, List.cons_append, List.nil_append]

/-- **A sub-packet that is as long as it declares is framed again as it lay.** -/
theorem encode_of_front {region : Bytes} {raw : RawPacket} (h : front region = .packet raw)
    (hwhole : raw.bytes.length = declared region) :
    raw.toSubPacket.encode raw.sequence = .ok raw.bytes := by
  obtain ⟨hlong, hsome, -, rfl⟩ := front_packet_iff.mp h
  match region, hlong with
  | b₀ :: b₁ :: b₂ :: b₃ :: rest, _ =>
    have hdeclared : declared (b₀ :: b₁ :: b₂ :: b₃ :: rest) = 4 * (b₁ >>> 1).toNat :=
      (length_units b₁).1
    obtain ⟨size, hsize⟩ : ∃ size, declared (b₀ :: b₁ :: b₂ :: b₃ :: rest) = size + 4 :=
      Nat.exists_eq_add_of_le' (by omega)
    -- the payload has as many bytes as are declared behind the four in front
    simp only [hsize, List.take_succ_cons, List.length_cons] at hwhole ⊢
    exact encode_fields b₀ b₁ b₂ b₃ (rest.take size) (by omega)

end Frame

end ZoneRelay
