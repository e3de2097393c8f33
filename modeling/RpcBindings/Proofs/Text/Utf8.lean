import RpcBindings.Proofs.Outcome
import RpcBindings.Proofs.Text.Output
import RpcBindings.Text.Utf8

/-!
# RpcBindings.Proofs.Text.Utf8

Reading bytes as UTF-8.  What is read as one character is the encoding of that
character, and every encoding is read; so bytes are read exactly when they are
the bytes of a text, and as the characters of that text (`decode_eq_ok_iff`).
-/

namespace RpcBindings.Text

/-- The bytes of a text are the encodings of its characters. -/
theorem toUTF8_toList (s : String) : s.toUTF8.toList = s.toList.flatMap String.utf8EncodeChar := by
  have hbytes : s.toUTF8 = s.toList.utf8Encode := by
    rw [← String.toByteArray_ofList, String.ofList_toList]
    rfl
  rw [hbytes, ByteArray.toList, toList_loop, List.reverse_nil, List.nil_append, List.drop_zero]
  exact List.toList_data_toByteArray

namespace Utf8

variable {count read bits code fuel position : Nat} {allowed : UInt8 → Bool} {first : UInt8}
  {bytes rest : List UInt8} {c : Char} {cs : List Char}

/-! ## Bytes of one character -/

/-- The first byte of a character gives the number of bytes behind it and its own bits. -/
theorem lead?_eq_some_iff :
    lead? first = some (count, bits) ↔
      (first.toNat < 0x80 ∧ count = 0 ∧ bits = first.toNat) ∨
      (0xC2 ≤ first.toNat ∧ first.toNat ≤ 0xDF ∧ count = 1 ∧ bits = first.toNat - 0xC0) ∨
      (0xE0 ≤ first.toNat ∧ first.toNat ≤ 0xEF ∧ count = 2 ∧ bits = first.toNat - 0xE0) ∨
      (0xF0 ≤ first.toNat ∧ first.toNat ≤ 0xF4 ∧ count = 3 ∧ bits = first.toNat - 0xF0) := by
  unfold lead?
  grind

/-- Whether a byte continues a character behind its second byte. -/
def continues (b : UInt8) : Bool := 0x80 ≤ b && b ≤ 0xBF

/-- A byte continues a character in the range `80` to `BF`. -/
theorem continues_iff {b : UInt8} : continues b = true ↔ 0x80 ≤ b.toNat ∧ b.toNat ≤ 0xBF := by
  simp [continues, UInt8.le_iff_toNat_le]

/-- Any byte that continues a character may be its second one but behind four first bytes. -/
theorem mayFollowLead_iff {second : UInt8} :
    mayFollowLead first second = true ↔
      (0x80 ≤ second.toNat ∧ second.toNat ≤ 0xBF) ∧
        (first.toNat = 0xE0 → 0xA0 ≤ second.toNat) ∧
        (first.toNat = 0xED → second.toNat ≤ 0x9F) ∧
        (first.toNat = 0xF0 → 0x90 ≤ second.toNat) ∧
        (first.toNat = 0xF4 → second.toNat ≤ 0x8F) := by
  have heq : ∀ n : UInt8, (first == n) = decide (first.toNat = n.toNat) := by
    intro n
    simp [UInt8.toNat_inj, beq_eq_decide]
  simp only [mayFollowLead, heq, Bool.and_eq_true, decide_eq_true_eq, UInt8.le_iff_toNat_le,
    apply_ite UInt8.toNat, UInt8.toNat_ofNat]
  grind

theorem continuation_zero_eq_ok_iff {result : Nat × List UInt8} :
    continuation 0 read bits allowed bytes = .ok result ↔ (bits, bytes) = result := by
  simp [continuation]

/-- One byte of a continuation adds six bits to those read before it. -/
theorem continuation_succ_eq_ok_iff {result : Nat × List UInt8} :
    continuation (count + 1) read bits allowed bytes = .ok result ↔
      ∃ b rest, bytes = b :: rest ∧ allowed b = true ∧
        continuation count (read + 1) (bits * 64 + (b.toNat - 0x80)) continues rest =
          .ok result := by
  cases bytes with
  | nil => simp [continuation]
  | cons b rest =>
      rw [continuation]
      by_cases h : allowed b = true
      · rw [if_pos h]
        constructor
        · exact fun hrest => ⟨b, rest, rfl, h, hrest⟩
        · rintro ⟨_, _, heq, -, hrest⟩
          cases heq
          exact hrest
      · rw [if_neg h]
        refine iff_of_false (by simp) ?_
        rintro ⟨_, _, heq, hallowed, -⟩
        cases heq
        exact h hallowed

/-! ## Encodings -/

/-- The encoding of a character, by the extent of its code point. -/
theorem utf8EncodeChar_eq (c : Char) :
    String.utf8EncodeChar c =
      if c.toNat ≤ 0x7F then [UInt8.ofNat c.toNat]
      else if c.toNat ≤ 0x7FF then
        [UInt8.ofNat (c.toNat / 64 % 32 + 0xC0), UInt8.ofNat (c.toNat % 64 + 0x80)]
      else if c.toNat ≤ 0xFFFF then
        [UInt8.ofNat (c.toNat / 4096 % 16 + 0xE0), UInt8.ofNat (c.toNat / 64 % 64 + 0x80),
          UInt8.ofNat (c.toNat % 64 + 0x80)]
      else
        [UInt8.ofNat (c.toNat / 262144 % 8 + 0xF0), UInt8.ofNat (c.toNat / 4096 % 64 + 0x80),
          UInt8.ofNat (c.toNat / 64 % 64 + 0x80), UInt8.ofNat (c.toNat % 64 + 0x80)] := rfl

/-- Every number below the surrogates, and every one between them and the end, is a code point. -/
theorem exists_toNat_eq (code : Nat) (h : code < 0xD800 ∨ 0xE000 ≤ code ∧ code < 0x110000) :
    ∃ c : Char, c.toNat = code := by
  have hvalid : code.isValidChar := by
    unfold Nat.isValidChar
    omega
  exact ⟨Char.ofNatAux code hvalid, rfl⟩

/-- A character is below the surrogates or above them. -/
theorem toNat_range (c : Char) : c.toNat < 0xD800 ∨ 0xE000 ≤ c.toNat ∧ c.toNat < 0x110000 := by
  have hvalid := c.valid
  unfold UInt32.isValidChar Nat.isValidChar at hvalid
  rw [Char.toNat_val] at hvalid
  omega

theorem eq_ofNat_iff {n : Nat} {b : UInt8} (h : n < 256) : b = UInt8.ofNat n ↔ b.toNat = n := by
  rw [← UInt8.toNat_inj, UInt8.toNat_ofNat', Nat.mod_eq_of_lt (by omega)]

/-- What is read as a character is its encoding. -/
theorem eq_encoding_of_continuation (hlead : lead? first = some (count, bits))
    (h : continuation count 1 bits (mayFollowLead first) bytes = .ok (code, rest)) :
    ∃ c : Char, c.toNat = code ∧ first :: bytes = String.utf8EncodeChar c ++ rest := by
  obtain ⟨hfirst, hcount, hbits⟩ | ⟨hlow, hhigh, hcount, hbits⟩ | ⟨hlow, hhigh, hcount, hbits⟩ |
    ⟨hlow, hhigh, hcount, hbits⟩ := lead?_eq_some_iff.1 hlead
  all_goals
    rw [hcount, hbits] at h
    simp only [continuation_succ_eq_ok_iff, continuation_zero_eq_ok_iff, mayFollowLead_iff,
      continues_iff, Prod.mk.injEq] at h
  · obtain ⟨hcode, rfl⟩ := h
    obtain ⟨c, hc⟩ := exists_toNat_eq code (by omega)
    refine ⟨c, hc, ?_⟩
    rw [utf8EncodeChar_eq, hc, if_pos (by omega), List.singleton_append, List.cons.injEq,
      eq_ofNat_iff (by omega)]
    exact ⟨hcode, rfl⟩
  · obtain ⟨b, _, rfl, hb, hcode, rfl⟩ := h
    obtain ⟨c, hc⟩ := exists_toNat_eq code (by omega)
    refine ⟨c, hc, ?_⟩
    rw [utf8EncodeChar_eq, hc, if_neg (by omega), if_pos (by omega)]
    simp only [List.cons_append, List.nil_append, List.cons.injEq, and_true]
    rw [eq_ofNat_iff (by omega), eq_ofNat_iff (by omega)]
    omega
  · obtain ⟨b, _, rfl, hb, b', _, rfl, hb', hcode, rfl⟩ := h
    obtain ⟨c, hc⟩ := exists_toNat_eq code (by omega)
    refine ⟨c, hc, ?_⟩
    rw [utf8EncodeChar_eq, hc, if_neg (by omega), if_neg (by omega), if_pos (by omega)]
    simp only [List.cons_append, List.nil_append, List.cons.injEq, and_true]
    rw [eq_ofNat_iff (by omega), eq_ofNat_iff (by omega), eq_ofNat_iff (by omega)]
    omega
  · obtain ⟨b, _, rfl, hb, b', _, rfl, hb', b'', _, rfl, hb'', hcode, rfl⟩ := h
    obtain ⟨c, hc⟩ := exists_toNat_eq code (by omega)
    refine ⟨c, hc, ?_⟩
    rw [utf8EncodeChar_eq, hc, if_neg (by omega), if_neg (by omega), if_neg (by omega)]
    simp only [List.cons_append, List.nil_append, List.cons.injEq, and_true]
    rw [eq_ofNat_iff (by omega), eq_ofNat_iff (by omega), eq_ofNat_iff (by omega),
      eq_ofNat_iff (by omega)]
    omega

/-- And the encoding of a character is read as that character. -/
theorem continuation_of_eq_encoding (h : first :: bytes = String.utf8EncodeChar c ++ rest) :
    ∃ count bits, lead? first = some (count, bits) ∧
      continuation count 1 bits (mayFollowLead first) bytes = .ok (c.toNat, rest) := by
  have hrange := toNat_range c
  rw [utf8EncodeChar_eq] at h
  split at h
  case isTrue hone =>
    obtain ⟨rfl, rfl⟩ := List.cons.inj h
    refine ⟨0, _, lead?_eq_some_iff.2 (.inl ⟨?_, rfl, rfl⟩), ?_⟩
    · rw [UInt8.toNat_ofNat']
      omega
    · rw [continuation_zero_eq_ok_iff, UInt8.toNat_ofNat', Nat.mod_eq_of_lt (by omega)]
  case isFalse hone =>
    split at h
    case isTrue htwo =>
      obtain ⟨rfl, rfl⟩ := List.cons.inj h
      refine ⟨1, _, lead?_eq_some_iff.2 (.inr (.inl ⟨?_, ?_, rfl, rfl⟩)), ?_⟩
      · rw [UInt8.toNat_ofNat']
        omega
      · rw [UInt8.toNat_ofNat']
        omega
      · simp only [continuation_succ_eq_ok_iff, continuation_zero_eq_ok_iff, mayFollowLead_iff,
          Prod.mk.injEq]
        refine ⟨_, _, rfl, ?_, ?_, rfl⟩
        all_goals
          simp only [UInt8.toNat_ofNat']
          omega
    case isFalse htwo =>
      split at h
      case isTrue hthree =>
        obtain ⟨rfl, rfl⟩ := List.cons.inj h
        refine ⟨2, _, lead?_eq_some_iff.2 (.inr (.inr (.inl ⟨?_, ?_, rfl, rfl⟩))), ?_⟩
        · rw [UInt8.toNat_ofNat']
          omega
        · rw [UInt8.toNat_ofNat']
          omega
        · simp only [continuation_succ_eq_ok_iff, continuation_zero_eq_ok_iff, mayFollowLead_iff,
            continues_iff, Prod.mk.injEq]
          refine ⟨_, _, rfl, ?_, _, _, rfl, ?_, ?_, rfl⟩
          all_goals
            simp only [UInt8.toNat_ofNat']
            omega
      case isFalse hthree =>
        obtain ⟨rfl, rfl⟩ := List.cons.inj h
        refine ⟨3, _, lead?_eq_some_iff.2 (.inr (.inr (.inr ⟨?_, ?_, rfl, rfl⟩))), ?_⟩
        · rw [UInt8.toNat_ofNat']
          omega
        · rw [UInt8.toNat_ofNat']
          omega
        · simp only [continuation_succ_eq_ok_iff, continuation_zero_eq_ok_iff, mayFollowLead_iff,
            continues_iff, Prod.mk.injEq]
          refine ⟨_, _, rfl, ?_, _, _, rfl, ?_, _, _, rfl, ?_, ?_, rfl⟩
          all_goals
            simp only [UInt8.toNat_ofNat']
            omega

/-! ## Whole texts -/

/-- The encodings of some characters are empty only where there are none. -/
theorem flatMap_utf8EncodeChar_eq_nil_iff :
    [] = cs.flatMap String.utf8EncodeChar ↔ cs = [] := by
  cases cs with
  | nil => simp
  | cons c cs => simp [String.utf8EncodeChar_ne_nil]

/-- Bytes decode to the characters that they encode, and to no others. -/
theorem decodeFrom_eq_ok_iff (hfuel : bytes.length ≤ fuel) :
    decodeFrom fuel position bytes = .ok cs ↔ bytes = cs.flatMap String.utf8EncodeChar := by
  induction fuel generalizing position bytes cs with
  | zero =>
      obtain rfl := List.eq_nil_of_length_eq_zero (Nat.le_zero.1 hfuel)
      rw [flatMap_utf8EncodeChar_eq_nil_iff, decodeFrom, Except.ok.injEq, eq_comm]
  | succ fuel ih =>
      cases bytes with
      | nil => rw [flatMap_utf8EncodeChar_eq_nil_iff, decodeFrom, Except.ok.injEq, eq_comm]
      | cons first bytes =>
          have hrest : ∀ {c : Char} {rest : List UInt8},
              first :: bytes = String.utf8EncodeChar c ++ rest → rest.length ≤ fuel := by
            intro c rest heq
            have hlength := congrArg List.length heq
            have hpos := List.length_pos_of_ne_nil (String.utf8EncodeChar_ne_nil (c := c))
            rw [List.length_append, List.length_cons] at hlength
            rw [List.length_cons] at hfuel
            omega
          rw [decodeFrom]
          constructor
          · intro h
            split at h
            · contradiction
            · next count bits hlead =>
              split at h
              · contradiction
              · next code rest hcontinuation =>
                obtain ⟨c, rfl, heq⟩ := eq_encoding_of_continuation hlead hcontinuation
                obtain ⟨more, hmore, hcs⟩ := bind_eq_ok_iff.1 h
                obtain rfl := Except.ok.inj hcs
                rw [List.flatMap_cons, Char.ofNat_toNat, ← (ih (hrest heq)).1 hmore]
                exact heq
          · intro h
            cases cs with
            | nil => contradiction
            | cons c cs =>
                rw [List.flatMap_cons] at h
                obtain ⟨count, bits, hlead, hcontinuation⟩ := continuation_of_eq_encoding h
                rw [hlead]
                simp only [hcontinuation, (ih (hrest h)).2 rfl, ok_bind, Char.ofNat_toNat,
                  pure_eq_ok]

/-- Bytes are read as the characters that they encode. -/
theorem decode_eq_ok_iff : decode bytes = .ok cs ↔ bytes = cs.flatMap String.utf8EncodeChar :=
  decodeFrom_eq_ok_iff (Nat.le_refl _)

/-- **Bytes are read exactly when they are the bytes of a text.** -/
theorem decode_isOk_iff :
    (∃ cs, decode bytes = .ok cs) ↔ ∃ s : String, bytes = s.toUTF8.toList := by
  simp only [decode_eq_ok_iff, toUTF8_toList]
  constructor
  · rintro ⟨cs, rfl⟩
    exact ⟨String.ofList cs, by rw [String.toList_ofList]⟩
  · rintro ⟨s, rfl⟩
    exact ⟨s.toList, rfl⟩

end Utf8

end RpcBindings.Text
