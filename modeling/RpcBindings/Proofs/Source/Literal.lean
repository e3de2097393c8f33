import Mathlib.Data.List.Forall2
import RpcBindings.Source.Literal

/-!
# RpcBindings.Proofs.Source.Literal

Literals in double quotes as the target languages have them, in two ways:

1. by a reader, which walks over the characters and knows at each of them whether it
   stands between characters, in an escape, or in the number of a character;
2. by spellings: what a literal may write for a character of its text (`Spells`).

The languages differ in their short escapes and in how the number of a character is
written.  A spelled literal is read as the text that it spells, and what follows it is
left; and what is written for a text is a spelled literal of it, whatever the text.
-/

namespace RpcBindings.Literal

/-! ## Readers -/

/-- Where a reader of a literal stands. -/
inductive Place where
  /-- Between two characters of the text. -/
  | text
  /-- Behind a backslash. -/
  | escape
  /-- At a digit of a character's number, with some more to come. -/
  | digit (left value : Nat)
  /-- Before the brace that opens a character's number. -/
  | opening
  /-- Behind that brace and the digits of a value, if there were any. -/
  | braced (value : Option Nat)

/-- The escapes of a language. -/
structure Escapes where
  /-- The character that an escape of one letter stands for. -/
  short : Char → Option Char
  /-- Where the escape `\u` leads. -/
  numbered : Place

/-- The escapes that Go and TypeScript have in common. -/
def sharedEscapes : Escapes where
  short
    | '"' => some '"'
    | '\\' => some '\\'
    | 'b' => some '\x08'
    | 'f' => some '\x0c'
    | 'n' => some '\n'
    | 'r' => some '\r'
    | 't' => some '\t'
    | 'v' => some '\x0b'
    | _ => none
  numbered := .digit 3 0

/-- The escapes of JSON. -/
def jsonEscapes : Escapes where
  short
    | '"' => some '"'
    | '\\' => some '\\'
    | '/' => some '/'
    | 'b' => some '\x08'
    | 'f' => some '\x0c'
    | 'n' => some '\n'
    | 'r' => some '\r'
    | 't' => some '\t'
    | _ => none
  numbered := .digit 3 0

/-- The escapes that JSON, Go and TypeScript have in common. -/
def commonEscapes : Escapes where
  short
    | '"' => some '"'
    | '\\' => some '\\'
    | 'b' => some '\x08'
    | 'f' => some '\x0c'
    | 'n' => some '\n'
    | 'r' => some '\r'
    | 't' => some '\t'
    | _ => none
  numbered := .digit 3 0

/-- The escapes of Rust. -/
def rustEscapes : Escapes where
  short
    | '"' => some '"'
    | '\'' => some '\''
    | '\\' => some '\\'
    | '0' => some '\x00'
    | 'n' => some '\n'
    | 'r' => some '\r'
    | 't' => some '\t'
    | _ => none
  numbered := .opening

/-- The value of a hexadecimal digit. -/
def hexDigit? (c : Char) : Option Nat :=
  if c.isDigit then some (c.toNat - '0'.toNat)
  else if 'a' ≤ c && c ≤ 'f' then some (c.toNat - 'a'.toNat + 10)
  else if 'A' ≤ c && c ≤ 'F' then some (c.toNat - 'A'.toNat + 10)
  else none

/-- The character of a number. -/
def charOf? (n : Nat) : Option Char :=
  if n.isValidChar then some (Char.ofNat n) else none

/-- A text that was read, with a character in front. -/
def within (c : Char) : Option (List Char × List Char) → Option (List Char × List Char)
  | none => none
  | some (cs, rest) => some (c :: cs, rest)

/-- The text up to the closing quote, and what follows it. -/
def readFrom (escapes : Escapes) : Place → List Char → Option (List Char × List Char)
  | _, [] => none
  | .text, c :: rest =>
    if c == '"' then some ([], rest)
    else if c == '\\' then readFrom escapes .escape rest
    else if c.toNat < 0x20 then none
    else within c (readFrom escapes .text rest)
  | .escape, c :: rest =>
    match escapes.short c with
    | some meant => within meant (readFrom escapes .text rest)
    | none => if c == 'u' then readFrom escapes escapes.numbered rest else none
  | .digit left value, c :: rest =>
    match left, hexDigit? c with
    | _, none => none
    | left + 1, some digit => readFrom escapes (.digit left (16 * value + digit)) rest
    | 0, some digit =>
      match charOf? (16 * value + digit) with
      | none => none
      | some meant => within meant (readFrom escapes .text rest)
  | .opening, c :: rest => if c == '\x7b' then readFrom escapes (.braced none) rest else none
  | .braced value, c :: rest =>
    if c == '\x7d' then
      match value.bind charOf? with
      | none => none
      | some meant => within meant (readFrom escapes .text rest)
    else
      match hexDigit? c with
      | none => none
      | some digit => readFrom escapes (.braced (some (16 * value.getD 0 + digit))) rest

/-- The text of a literal at the start, and what follows the literal. -/
def read (escapes : Escapes) : List Char → Option (List Char × List Char)
  | '"' :: cs => readFrom escapes .text cs
  | _ => none

/-! ## Spellings -/

/-- The number that hexadecimal digits stand for, behind the digits of a value. -/
def hexValue? (value : Nat) : List Char → Option Nat
  | [] => some value
  | c :: rest => (hexDigit? c).bind fun digit => hexValue? (16 * value + digit) rest

/-- What a literal may write for a character: itself, an escape of one letter, or its
number, in four digits or in up to six digits between braces. -/
inductive Spells (escapes : Escapes) (c : Char) : List Char → Prop where
  | plain (hquote : c ≠ '"') (hslash : c ≠ '\\') (hcontrol : 0x20 ≤ c.toNat) :
    Spells escapes c [c]
  | short {letter : Char} (h : escapes.short letter = some c) : Spells escapes c ['\\', letter]
  | numbered {digits : List Char} (hform : escapes.numbered = .digit 3 0)
    (hlength : digits.length = 4) (hvalue : hexValue? 0 digits = some c.toNat) :
    Spells escapes c ('\\' :: 'u' :: digits)
  | braced {digits : List Char} (hform : escapes.numbered = .opening) (hne : digits ≠ [])
    (hlength : digits.length ≤ 6) (hvalue : hexValue? 0 digits = some c.toNat) :
    Spells escapes c ('\\' :: 'u' :: '\x7b' :: digits ++ ['\x7d'])

/-- A literal of a text spells its characters one after the other between quotes. -/
def IsLiteral (escapes : Escapes) (text literal : List Char) : Prop :=
  ∃ pieces, List.Forall₂ (Spells escapes) text pieces ∧
    literal = '"' :: pieces.flatten ++ ['"']

/-- A language has the escapes of another one. -/
structure Escapes.Within (escapes more : Escapes) : Prop where
  short : ∀ letter c, escapes.short letter = some c → more.short letter = some c
  numbered : more.numbered = escapes.numbered

/-- The letters of escapes can be seen, and are not the mark of a number. -/
structure Escapes.Regular (escapes : Escapes) : Prop where
  number : escapes.short 'u' = none
  letters : ∀ letter c, escapes.short letter = some c → 0x20 ≤ letter.toNat

variable {escapes more : Escapes} {c : Char} {text literal digits spelled : List Char} {value : Nat}

theorem commonEscapes_within_json : commonEscapes.Within jsonEscapes where
  short letter c h := by
    simp only [commonEscapes] at h
    split at h <;> first | exact h | contradiction
  numbered := rfl

theorem commonEscapes_within_shared : commonEscapes.Within sharedEscapes where
  short letter c h := by
    simp only [commonEscapes] at h
    split at h <;> first | exact h | contradiction
  numbered := rfl

/-- The escapes of JSON are regular. -/
theorem regular_jsonEscapes : jsonEscapes.Regular where
  number := rfl
  letters letter c h := by
    simp only [jsonEscapes] at h
    split at h <;> first | decide | contradiction

/-- The escapes that the languages share are regular. -/
theorem regular_sharedEscapes : sharedEscapes.Regular where
  number := rfl
  letters letter c h := by
    simp only [sharedEscapes] at h
    split at h <;> first | decide | contradiction

/-- Escapes within regular ones are regular. -/
theorem Escapes.Within.regular (h : escapes.Within more) (hmore : more.Regular) :
    escapes.Regular where
  number := by
    cases hshort : escapes.short 'u' with
    | none => rfl
    | some c => rw [← hmore.number, h.short _ _ hshort]
  letters letter c hshort := hmore.letters letter c (h.short letter c hshort)

/-- The escapes of Rust are regular. -/
theorem regular_rustEscapes : rustEscapes.Regular where
  number := rfl
  letters letter c h := by
    simp only [rustEscapes] at h
    split at h <;> first | decide | contradiction

/-- A literal is one as well where there are more escapes. -/
theorem Spells.mono (h : Spells escapes c spelled) (hwithin : escapes.Within more) :
    Spells more c spelled := by
  cases h with
  | plain hquote hslash hcontrol => exact .plain hquote hslash hcontrol
  | short hshort => exact .short (hwithin.short _ _ hshort)
  | numbered hform hlength hvalue =>
      exact .numbered (hwithin.numbered.trans hform) hlength hvalue
  | braced hform hne hlength hvalue =>
      exact .braced (hwithin.numbered.trans hform) hne hlength hvalue

/-- A literal stays one in a language with more escapes. -/
theorem IsLiteral.mono (h : IsLiteral escapes text literal) (hwithin : escapes.Within more) :
    IsLiteral more text literal := by
  obtain ⟨pieces, hpieces, hliteral⟩ := h
  exact ⟨pieces, hpieces.imp fun _ _ hspells => hspells.mono hwithin, hliteral⟩

/-! ## Spelled literals are read -/

/-- The code of a character is read back as the character. -/
theorem charOf?_toNat (c : Char) : charOf? c.toNat = some c := by
  have hvalid : c.toNat.isValidChar := c.valid
  rw [charOf?, if_pos hvalid, Char.ofNat_toNat]

/-- Digits are read up to the last one. -/
theorem readFrom_digits {left : Nat} (hlength : digits.length = left + 1)
    (hvalue : hexValue? value digits = some c.toNat) (rest : List Char) :
    readFrom escapes (.digit left value) (digits ++ rest) =
      within c (readFrom escapes .text rest) := by
  induction left generalizing value digits with
  | zero =>
      obtain ⟨d, rfl⟩ := List.length_eq_one_iff.1 hlength
      obtain ⟨digit, hdigit, hvalue⟩ := Option.bind_eq_some_iff.1 hvalue
      have hnumber : 16 * value + digit = c.toNat := Option.some.inj hvalue
      simp [readFrom, hdigit, hnumber, charOf?_toNat]
  | succ left ih =>
      cases digits with
      | nil => contradiction
      | cons d digits =>
          obtain ⟨digit, hdigit, hvalue⟩ := Option.bind_eq_some_iff.1 hvalue
          simp only [List.cons_append, readFrom, hdigit]
          exact ih (by simpa using hlength) hvalue

/-- Digits are read up to the brace. -/
theorem readFrom_braced (value : Option Nat) (hsome : value.isSome = true ∨ digits ≠ [])
    (hvalue : hexValue? (value.getD 0) digits = some c.toNat) (rest : List Char) :
    readFrom escapes (.braced value) (digits ++ '\x7d' :: rest) =
      within c (readFrom escapes .text rest) := by
  induction digits generalizing value with
  | nil =>
      obtain ⟨known, rfl⟩ := Option.isSome_iff_exists.1 (hsome.resolve_right (by simp))
      have hnumber : known = c.toNat := Option.some.inj hvalue
      simp [readFrom, hnumber, charOf?_toNat]
  | cons d digits ih =>
      obtain ⟨digit, hdigit, hvalue⟩ := Option.bind_eq_some_iff.1 hvalue
      have hne : d ≠ '\x7d' := by
        rintro rfl
        contradiction
      simp only [List.cons_append, readFrom, beq_iff_eq, hne, if_false, hdigit]
      exact ih _ (.inl rfl) hvalue

/-- What spells a character is read as that character, and the rest after it. -/
theorem Spells.readFrom_append (h : Spells escapes c spelled) (hregular : escapes.Regular)
    (rest : List Char) :
    readFrom escapes .text (spelled ++ rest) = within c (readFrom escapes .text rest) := by
  cases h with
  | plain hquote hslash hcontrol => simp [readFrom, hquote, hslash, Nat.not_lt.2 hcontrol]
  | short hshort => simp [readFrom, hshort]
  | numbered hform hlength hvalue =>
      rw [← readFrom_digits hlength hvalue, ← hform]
      simp [readFrom, hregular.number]
  | @braced digits hform hne hlength hvalue =>
      rw [← readFrom_braced none (.inr hne) hvalue]
      simp [readFrom, hregular.number, hform]

/-- **Literals are read as the texts that they spell**, and what follows is left. -/
theorem IsLiteral.read_append (h : IsLiteral escapes text literal) (hregular : escapes.Regular)
    (rest : List Char) : read escapes (literal ++ rest) = some (text, rest) := by
  obtain ⟨pieces, hpieces, rfl⟩ := h
  rw [List.cons_append, List.cons_append, read, List.append_assoc, List.singleton_append]
  induction hpieces with
  | nil => simp [readFrom]
  | cons hspells _ ih =>
      rw [List.flatten_cons, List.append_assoc, hspells.readFrom_append hregular, ih, within]

/-! ## Literals are spelled -/

/-- A text whose characters are each spelled is a literal between quotation marks. -/
theorem isLiteral_flatMap {write : Char → List Char} (hwrite : ∀ c, Spells escapes c (write c))
    (text : List Char) : IsLiteral escapes text ('"' :: text.flatMap write ++ ['"']) := by
  refine ⟨text.map write, ?_, by rw [List.flatMap_def]⟩
  rw [List.forall₂_map_right_iff]
  exact List.forall₂_same.2 fun c _ => hwrite c

/-- The JSON form of a character spells it with the common escapes. -/
theorem spells_escapeChar (c : Char) : Spells commonEscapes c (Json.escapeChar c) := by
  unfold Json.escapeChar
  -- The seven characters with an escape of one letter.
  iterate 7
    split
    · next h => obtain rfl := beq_iff_eq.1 h; exact .short rfl
  split
  · next hcontrol =>
    have hpadded : ∀ n < 0x20, (Text.hexPadded 4 n).length = 4 ∧
        hexValue? 0 (Text.hexPadded 4 n) = some n := by decide
    exact .numbered rfl (hpadded _ hcontrol).1 (hpadded _ hcontrol).2
  · next hquote hslash _ _ _ _ _ hcontrol =>
    exact .plain (by simpa using hquote) (by simpa using hslash) (Nat.not_lt.1 hcontrol)

/-- The Rust form of a character spells it. -/
theorem spells_escapeRust (c : Char) : Spells rustEscapes c (escapeRust c) := by
  unfold escapeRust
  split
  · next h =>
    obtain rfl | rfl : c = '"' ∨ c = '\\' := by simpa using h
    · exact .short rfl
    · exact .short rfl
  iterate 3
    split
    · next h => obtain rfl := beq_iff_eq.1 h; exact .short rfl
  split
  · next hcontrol =>
    have hdigits : ∀ n < 0x20, Nat.toDigits 16 n ≠ [] ∧ (Nat.toDigits 16 n).length ≤ 6 ∧
        hexValue? 0 (Nat.toDigits 16 n) = some n := by decide
    obtain ⟨hne, hlength, hvalue⟩ := hdigits _ hcontrol
    exact .braced rfl hne hlength hvalue
  · next hquote _ _ _ hcontrol =>
    simp only [Bool.or_eq_true, beq_iff_eq, not_or] at hquote
    exact .plain hquote.1 hquote.2 (Nat.not_lt.1 hcontrol)

/-- The double-quoted form of a text is a literal of the text. -/
theorem isLiteral_doubleQuoted (s : String) :
    IsLiteral commonEscapes s.toList (doubleQuoted s).toList := by
  rw [doubleQuoted, Json.string, String.toList_ofList, Json.stringChars]
  exact isLiteral_flatMap spells_escapeChar _

/-- The Rust form of a text is a literal of the text. -/
theorem isLiteral_rust (s : String) : IsLiteral rustEscapes s.toList (rust s).toList := by
  rw [rust, String.toList_ofList, rustChars]
  exact isLiteral_flatMap spells_escapeRust _

/-- **A literal of Go or TypeScript is read as the text that it was written for.** -/
theorem read_doubleQuoted (s : String) (rest : List Char) :
    read sharedEscapes ((doubleQuoted s).toList ++ rest) = some (s.toList, rest) :=
  ((isLiteral_doubleQuoted s).mono commonEscapes_within_shared).read_append
    regular_sharedEscapes rest

/-- **A literal of Rust is read as the text that it was written for.** -/
theorem read_rust (s : String) (rest : List Char) :
    read rustEscapes ((rust s).toList ++ rest) = some (s.toList, rest) :=
  (isLiteral_rust s).read_append regular_rustEscapes rest

/-! ## Literals stay on one line -/

/-- A digit is no quote, no backslash and no control character. -/
theorem of_hexDigit? {digit : Nat} (h : hexDigit? c = some digit) :
    c ≠ '"' ∧ c ≠ '\\' ∧ 0x20 ≤ c.toNat := by
  refine ⟨?_, ?_, ?_⟩
  · rintro rfl
    contradiction
  · rintro rfl
    contradiction
  · by_contra hcontrol
    have hnone : ∀ n < 0x20, hexDigit? (Char.ofNat n) = none := by decide
    have hc := hnone c.toNat (Nat.not_le.1 hcontrol)
    rw [Char.ofNat_toNat, h] at hc
    contradiction

/-- Hexadecimal digits are neither quotation marks, backslashes nor control characters. -/
theorem of_hexValue? {n : Nat} (h : hexValue? value digits = some n) :
    ∀ c ∈ digits, c ≠ '"' ∧ c ≠ '\\' ∧ 0x20 ≤ c.toNat := by
  induction digits generalizing value with
  | nil => simp
  | cons d digits ih =>
      obtain ⟨digit, hdigit, hrest⟩ := Option.bind_eq_some_iff.1 h
      exact List.forall_mem_cons.2 ⟨of_hexDigit? hdigit, ih hrest⟩

/-- The spelling of a character holds no control character. -/
theorem Spells.le_toNat (h : Spells escapes c spelled) (hregular : escapes.Regular) :
    ∀ d ∈ spelled, 0x20 ≤ d.toNat := by
  cases h with
  | plain _ _ hcontrol => simpa using hcontrol
  | short hshort => simpa using hregular.letters _ _ hshort
  | numbered _ _ hvalue =>
      have hdigits := of_hexValue? hvalue
      simpa using fun d hd => (hdigits d hd).2.2
  | braced _ _ _ hvalue =>
      have hdigits := of_hexValue? hvalue
      simp only [List.cons_append, List.forall_mem_cons, List.forall_mem_append]
      exact ⟨by decide, by decide, by decide, fun d hd => (hdigits d hd).2.2, by simp⟩

/-- Literals have no control characters, and so no line ends in them. -/
theorem IsLiteral.le_toNat (h : IsLiteral escapes text literal) (hregular : escapes.Regular) :
    ∀ d ∈ literal, 0x20 ≤ d.toNat := by
  obtain ⟨pieces, hpieces, rfl⟩ := h
  simp only [List.cons_append, List.forall_mem_cons, List.forall_mem_append]
  refine ⟨by decide, ?_, by simp⟩
  induction hpieces with
  | nil => simp
  | cons hspells _ ih =>
      rw [List.flatten_cons, List.forall_mem_append]
      exact ⟨hspells.le_toNat hregular, ih⟩

/-- A double-quoted literal is on one line. -/
theorem notMem_doubleQuoted (s : String) : '\n' ∉ (doubleQuoted s).toList := fun hmem =>
  absurd ((isLiteral_doubleQuoted s).le_toNat
    (commonEscapes_within_shared.regular regular_sharedEscapes) _ hmem) (by decide)

/-- A Rust literal is on one line. -/
theorem notMem_rust (s : String) : '\n' ∉ (rust s).toList := fun hmem =>
  absurd ((isLiteral_rust s).le_toNat regular_rustEscapes _ hmem) (by decide)

end RpcBindings.Literal
