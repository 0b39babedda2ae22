import ZoneRelay.Json.Quoted
import ZoneRelay.Proofs.Text.Utf8

/-!
# Quoted strings are read back

Every character of a text **stands for itself in the string** (`ZoneRelay.Json.Stands`): reading
what is written for it yields some pieces and goes on behind them, and these pieces make the bytes
of the character. Whether they are one byte, a unit, or up to four bytes is known to
`ZoneRelay.Json.exists_pieces` alone. So the pieces of a quoted text make that text
(`ZoneRelay.Json.readPieces_quoted`).
-/

namespace ZoneRelay

namespace Json

/-! ### Reading pieces -/

/-- A byte that is neither a quote, nor a backslash, nor a control character. -/
structure Ordinary (b : UInt8) : Prop where
  not_control : ¬ b < 0x20
  ne_quote : b ≠ ascii '"'
  ne_backslash : b ≠ ascii '\\'

theorem readPieces_quote (rest : Bytes) : readPieces (ascii '"' :: rest) = some ([], rest) := by
  rw [readPieces.eq_def]
  exact if_pos rfl

theorem readPieces_ordinary {b : UInt8} (h : Ordinary b) (rest : Bytes) :
    readPieces (b :: rest) = (readPieces rest).map fun r => (.byte b :: r.1, r.2) := by
  rw [readPieces.eq_def]
  simp only [if_neg h.ne_quote, if_neg h.not_control, if_pos h.ne_backslash]

theorem readPieces_ordinaries {bytes : Bytes} (h : ∀ b ∈ bytes, Ordinary b) (rest : Bytes) :
    readPieces (bytes ++ rest) =
      (readPieces rest).map fun r => (bytes.map .byte ++ r.1, r.2) := by
  induction bytes with
  | nil => simp
  | cons b bytes ih =>
    rw [List.cons_append, readPieces_ordinary (h b List.mem_cons_self),
      ih fun b hb => h b (List.mem_cons_of_mem _ hb), Option.map_map]
    rfl

theorem pieceBytes?_bytes (bytes : Bytes) (more : List Piece) :
    pieceBytes? none (bytes.map .byte ++ more) = (pieceBytes? none more).map (bytes ++ ·) := by
  induction bytes with
  | nil => simp
  | cons b bytes ih =>
    rw [List.map_cons, List.cons_append, pieceBytes?, ih, Option.map_map]
    rfl

theorem readPieces_shortEscape {e b : UInt8} (he : e ≠ ascii 'u') (h : shortEscape? e = some b)
    (rest : Bytes) : readPieces (ascii '\\' :: e :: rest) =
      (readPieces rest).map fun r => (.byte b :: r.1, r.2) := by
  have hquote : ascii '\\' ≠ ascii '"' := by decide
  have hcontrol : ¬ ascii '\\' < 0x20 := by decide
  rw [readPieces.eq_def]
  simp only [if_neg hquote, if_neg hcontrol, ne_eq, not_true_eq_false, if_false, if_neg he, h]

theorem readPieces_unit {a b c d : UInt8} {u : Nat} (h : hexUnit? a b c d = some u)
    (rest : Bytes) : readPieces (ascii '\\' :: ascii 'u' :: a :: b :: c :: d :: rest) =
      (readPieces rest).map fun r => (.unit u :: r.1, r.2) := by
  have hquote : ascii '\\' ≠ ascii '"' := by decide
  have hcontrol : ¬ ascii '\\' < 0x20 := by decide
  rw [readPieces.eq_def]
  simp only [if_neg hquote, if_neg hcontrol, ne_eq, not_true_eq_false, if_false, if_true, h]

/-! ### Characters -/

/-- **A character stands in a string as some pieces**: they are read from what is written for it,
and make its bytes. -/
structure Stands (c : Char) (pieces : List Piece) : Prop where
  read : ∀ rest, readPieces ((escaped c).flatMap String.utf8EncodeChar ++ rest) =
    (readPieces rest).map fun r => (pieces ++ r.1, r.2)
  bytes : ∀ more, pieceBytes? none (pieces ++ more) =
    (pieceBytes? none more).map (String.utf8EncodeChar c ++ ·)

/-- A short escape stands for a character of one byte. -/
theorem stands_shortEscape {c e : Char} (hwritten : escaped c = ['\\', e])
    (hbytes : String.utf8EncodeChar e = [ascii e]) (he : ascii e ≠ ascii 'u')
    (h : shortEscape? (ascii e) = some (ascii c)) (hself : String.utf8EncodeChar c = [ascii c]) :
    Stands c [.byte (ascii c)] where
  read rest := by
    rw [hwritten, List.flatMap_cons, List.flatMap_singleton, hbytes]
    exact readPieces_shortEscape he h rest
  bytes more := by
    rw [hself]
    rfl

/-- The unit of a control character stands for it. -/
theorem stands_control {c : Char} (hc : c.toNat < 0x20)
    (hwritten : escaped c = ['\\', 'u', '0', '0', Nat.digitChar (c.toNat / 16),
      Nat.digitChar (c.toNat % 16)]) : Stands c [.unit c.toNat] where
  read rest := by
    have hdigit : ∀ n < 16, String.utf8EncodeChar (Nat.digitChar n) = [ascii (Nat.digitChar n)] ∧
        hexValue? (ascii (Nat.digitChar n)) = some n := by decide
    have hfirst := hdigit (c.toNat / 16) (by omega)
    have hsecond := hdigit (c.toNat % 16) (by omega)
    have hunit : hexUnit? (ascii '0') (ascii '0') (ascii (Nat.digitChar (c.toNat / 16)))
        (ascii (Nat.digitChar (c.toNat % 16))) = some c.toNat := by
      have hzero : hexValue? (ascii '0') = some 0 := by decide
      simp only [hexUnit?, hzero, hfirst.2, hsecond.2, Option.bind_eq_bind, Option.bind_some]
      exact congrArg some (by omega)
    have hbytes : (escaped c).flatMap String.utf8EncodeChar = [ascii '\\', ascii 'u', ascii '0',
        ascii '0', ascii (Nat.digitChar (c.toNat / 16)),
        ascii (Nat.digitChar (c.toNat % 16))] := by
      rw [hwritten]
      simp only [List.flatMap_cons, List.flatMap_nil, hfirst.1, hsecond.1]
      rfl
    rw [hbytes]
    exact readPieces_unit hunit rest
  bytes more := by
    have hhigh : isHigh c.toNat = false := by
      simp only [isHigh, Bool.and_eq_false_iff, decide_eq_false_iff_not]
      omega
    have hlow : isLow c.toNat = false := by
      simp only [isLow, Bool.and_eq_false_iff, decide_eq_false_iff_not]
      omega
    rw [List.singleton_append, pieceBytes?, hhigh, hlow, Char.ofNat_toNat]
    rfl

/-- The bytes of a character that needs no escape are ordinary. -/
theorem ordinary_of_mem_utf8EncodeChar {c : Char} (hc : 0x20 ≤ c.toNat) (hquote : c ≠ '"')
    (hbackslash : c ≠ '\\') {b : UInt8} (hb : b ∈ String.utf8EncodeChar c) : Ordinary b := by
  have hne : ∀ {d : Char}, c ≠ d → d.toNat < 0x80 → b.toNat ≠ d.toNat := by
    intro d hcd hd heq
    rcases Utf8.toNat_of_mem_utf8EncodeChar hb with hself | habove
    · exact hcd (Char.toNat_inj.mp (hself.symm.trans heq))
    · omega
  refine ⟨?_, ?_, ?_⟩
  · rw [UInt8.lt_iff_toNat_lt]
    show ¬ b.toNat < 32
    rcases Utf8.toNat_of_mem_utf8EncodeChar hb with hself | habove <;> omega
  · rintro rfl
    exact hne hquote (by decide) rfl
  · rintro rfl
    exact hne hbackslash (by decide) rfl

/-- A character that needs no escape stands as its bytes. -/
theorem stands_self {c : Char} (hc : 0x20 ≤ c.toNat) (hquote : c ≠ '"') (hbackslash : c ≠ '\\')
    (hwritten : escaped c = [c]) : Stands c ((String.utf8EncodeChar c).map .byte) where
  read rest := by
    rw [hwritten, List.flatMap_singleton]
    refine readPieces_ordinaries ?_ rest
    intro b hb
    exact ordinary_of_mem_utf8EncodeChar hc hquote hbackslash hb
  bytes more := pieceBytes?_bytes _ more

/-- **Every character stands in a string as some pieces.** -/
theorem exists_pieces (c : Char) : ∃ pieces, Stands c pieces := by
  have hwritten : escaped c = escaped c := rfl
  conv at hwritten => rhs; unfold escaped
  split at hwritten
  case h_8 hquote hbackslash _ _ _ _ _ =>
    split at hwritten
    case isTrue hc => exact ⟨_, stands_control hc hwritten⟩
    case isFalse hc => exact ⟨_, stands_self (Nat.le_of_not_lt hc) hquote hbackslash hwritten⟩
  all_goals
    exact ⟨_, stands_shortEscape hwritten (by decide) (by decide) (by decide) (by decide)⟩

/-! ### Texts -/

/-- **A quoted text is read back**, and what follows it is left. -/
theorem readPieces_quoted (text : String) (rest : Bytes) :
    ∃ pieces, readPieces ((text.toList.flatMap escaped).flatMap String.utf8EncodeChar ++
        ascii '"' :: rest) = some (pieces, rest) ∧ pieceText? pieces = some text := by
  have hchars : ∀ chars : List Char, ∃ pieces,
      readPieces ((chars.flatMap escaped).flatMap String.utf8EncodeChar ++ ascii '"' :: rest) =
        some (pieces, rest) ∧
      pieceBytes? none pieces = some (chars.flatMap String.utf8EncodeChar) := by
    intro chars
    induction chars with
    | nil => exact ⟨[], readPieces_quote rest, rfl⟩
    | cons c chars ih =>
      obtain ⟨front, hfront⟩ := exists_pieces c
      obtain ⟨pieces, hread, hbytes⟩ := ih
      refine ⟨front ++ pieces, ?_, ?_⟩
      · rw [List.flatMap_cons, List.flatMap_append, List.append_assoc, hfront.read, hread]
        rfl
      · rw [hfront.bytes, hbytes]
        rfl
  obtain ⟨pieces, hread, hbytes⟩ := hchars text.toList
  refine ⟨pieces, hread, ?_⟩
  rw [pieceText?, hbytes]
  exact Utf8.decode?_encode text

end Json

end ZoneRelay
