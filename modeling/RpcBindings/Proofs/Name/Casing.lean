import RpcBindings.Name.Style
import RpcBindings.Proofs.Source.Lines

/-!
# RpcBindings.Proofs.Name.Casing

The characters of identifiers.  Casings write the words of a name with their letters
in one case or the other, so an identifier of a declaration consists of letters and
digits, whatever the name holds; and no letter or digit of the name is lost in any of
them.
-/

namespace RpcBindings

namespace Name

variable {c : Char} {cs word name : List Char}

theorem isWordChar_iff :
    isWordChar c = true ↔ c.isUpper = true ∨ c.isLower = true ∨ c.isDigit = true := by
  unfold isWordChar Char.isAlphanum Char.isAlpha
  simp [or_assoc]

/-- The characters of words are ASCII. -/
theorem toNat_lt_of_isWordChar (h : isWordChar c = true) : c.toNat < 128 := by
  unfold isWordChar Char.isAlphanum Char.isAlpha Char.isUpper Char.isLower Char.isDigit at h
  simp only [Bool.or_eq_true, Bool.and_eq_true, decide_eq_true_eq, ge_iff_le,
    UInt32.le_iff_toNat_le] at h
  have hupper : 'Z'.val.toNat = 90 := rfl
  have hlower : 'z'.val.toNat = 122 := rfl
  have hdigit : '9'.val.toNat = 57 := rfl
  have hcode : c.toNat = c.val.toNat := rfl
  omega

/-- What holds of all ASCII letters and digits. -/
theorem of_isWordChar {P : Char → Prop}
    (h : ∀ n < 128, isWordChar (Char.ofNat n) = true → P (Char.ofNat n))
    (hc : isWordChar c = true) : P c := by
  have hP := h c.toNat (toNat_lt_of_isWordChar hc)
  rw [Char.ofNat_toNat] at hP
  exact hP hc

theorem isWordChar_toUpper (h : isWordChar c = true) : isWordChar c.toUpper = true :=
  of_isWordChar (P := fun c => isWordChar c.toUpper = true) (by decide) h

theorem isWordChar_toLower (h : isWordChar c = true) : isWordChar c.toLower = true :=
  of_isWordChar (P := fun c => isWordChar c.toLower = true) (by decide) h

theorem isWordChar_lowered (h : ∀ c ∈ word, isWordChar c = true) :
    ∀ c ∈ lowered word, isWordChar c = true := by
  rw [lowered, List.forall_mem_map]
  exact fun c hc => isWordChar_toLower (h c hc)

theorem isWordChar_uppered (h : ∀ c ∈ word, isWordChar c = true) :
    ∀ c ∈ uppered word, isWordChar c = true := by
  rw [uppered, List.forall_mem_map]
  exact fun c hc => isWordChar_toUpper (h c hc)

theorem isWordChar_capitalized (h : ∀ c ∈ word, isWordChar c = true) :
    ∀ c ∈ capitalized word, isWordChar c = true := by
  cases word with
  | nil => simp [capitalized]
  | cons first rest =>
      rw [List.forall_mem_cons] at h
      rw [capitalized, List.forall_mem_cons, List.forall_mem_map]
      exact ⟨isWordChar_toUpper h.1, fun c hc => isWordChar_toLower (h.2 c hc)⟩

/-- An exported word holds characters of words only. -/
theorem isWordChar_exportedWord (h : ∀ c ∈ word, isWordChar c = true) :
    ∀ c ∈ exportedWord word, isWordChar c = true := by
  unfold exportedWord
  split
  · exact isWordChar_uppered h
  · exact isWordChar_capitalized h

/-- The pascal form holds characters of words only. -/
theorem isWordChar_pascalChars (hc : c ∈ pascalChars name) : isWordChar c = true := by
  obtain ⟨word, hword, hc⟩ := List.mem_flatMap.1 hc
  exact isWordChar_capitalized (fun c hc => isWordChar_of_mem_wordsOfChars hword hc) c hc

theorem isWordChar_camelChars (hc : c ∈ camelChars name) : isWordChar c = true := by
  unfold camelChars at hc
  cases hpascal : pascalChars name with
  | nil => simp [hpascal] at hc
  | cons first rest =>
      have hall : ∀ c ∈ first :: rest, isWordChar c = true :=
        fun c hc => isWordChar_pascalChars (hpascal ▸ hc)
      rw [List.forall_mem_cons] at hall
      rw [hpascal, List.mem_cons] at hc
      obtain rfl | hc := hc
      · exact isWordChar_toLower hall.1
      · exact hall.2 c hc

theorem isWordChar_exportedChars (hc : c ∈ exportedChars name) : isWordChar c = true := by
  obtain ⟨word, hword, hc⟩ := List.mem_flatMap.1 hc
  exact isWordChar_exportedWord (fun c hc => isWordChar_of_mem_wordsOfChars hword hc) c hc

/-- Snake case has underscores between its words. -/
theorem isWordChar_snakeChars (hc : c ∈ snakeChars name) : isWordChar c = true ∨ c = '_' := by
  obtain hc | ⟨word, hword, hc⟩ := Text.mem_intercalate hc
  · exact .inr (List.mem_singleton.1 hc)
  · obtain ⟨word, hmem, rfl⟩ := List.mem_map.1 hword
    exact .inl (isWordChar_lowered (fun c hc => isWordChar_of_mem_wordsOfChars hmem hc) c hc)

/-- Members in Rust have the mark of raw identifiers besides. -/
theorem isWordChar_rustMember {name : String} (hc : c ∈ (rustMember name).toList) :
    isWordChar c = true ∨ c = '_' ∨ c = '#' := by
  have hsnake : ∀ c ∈ (snake name).toList, isWordChar c = true ∨ c = '_' ∨ c = '#' := by
    intro c hc
    rw [snake, String.toList_ofList] at hc
    exact (isWordChar_snakeChars hc).imp_right .inl
  unfold rustMember escapeRustKeyword at hc
  split at hc
  · rw [String.toList_append, List.mem_append] at hc
    obtain hc | hc := hc
    · exact hsnake c hc
    · obtain rfl : c = '_' := by simpa using hc
      exact .inr (.inl rfl)
  · split at hc
    · rw [String.toList_append, List.mem_append] at hc
      obtain hc | hc := hc
      · obtain rfl | rfl : c = 'r' ∨ c = '#' := by simpa using hc
        · exact .inl rfl
        · exact .inr (.inr rfl)
      · exact hsnake c hc
    · exact hsnake c hc

/-! ## No letter is lost -/

/-- Words are what is left of a name without its separators. -/
theorem flatten_wordsOfChars (name : List Char) :
    (wordsOfChars name).flatten = name.filter isWordChar := by
  have hextend : ∀ (c : Char) (words : List (List Char)),
      (extendFirst c words).flatten = c :: words.flatten := by
    intro c words
    cases words <;> rfl
  induction name with
  | nil => rfl
  | cons c rest ih =>
      rw [wordsOfChars]
      cases hc : isWordChar c with
      | false => simp [hc, ih]
      | true =>
          rw [List.filter_cons_of_pos hc, ← ih]
          split
          · contradiction
          · split
            · exact hextend c _
            · rfl

/-- Words of as many letters each have as many letters as the name. -/
theorem countP_flatMap_wordsOfChars {write : List Char → List Char}
    (hlength : ∀ word, (write word).length = word.length)
    (hword : ∀ word, (∀ c ∈ word, isWordChar c = true) → ∀ c ∈ write word, isWordChar c = true) :
    ((wordsOfChars name).flatMap write).countP isWordChar = name.countP isWordChar := by
  have hall : ∀ c ∈ (wordsOfChars name).flatMap write, isWordChar c = true := by
    intro c hc
    obtain ⟨word, hmem, hc⟩ := List.mem_flatMap.1 hc
    exact hword word (fun c hc => isWordChar_of_mem_wordsOfChars hmem hc) c hc
  calc
    ((wordsOfChars name).flatMap write).countP isWordChar
        = ((wordsOfChars name).flatMap write).length := List.countP_eq_length.2 hall
    _ = (wordsOfChars name).flatten.length := by
      rw [List.length_flatMap, List.length_flatten]
      simp only [hlength]
    _ = name.countP isWordChar := by rw [flatten_wordsOfChars, List.countP_eq_length_filter]

theorem length_capitalized (word : List Char) : (capitalized word).length = word.length := by
  cases word <;> simp [capitalized]

theorem length_exportedWord (word : List Char) : (exportedWord word).length = word.length := by
  unfold exportedWord
  split
  · simp [uppered]
  · exact length_capitalized word

/-- The pascal form keeps the number of characters of words. -/
theorem countP_pascalChars (name : List Char) :
    (pascalChars name).countP isWordChar = name.countP isWordChar :=
  countP_flatMap_wordsOfChars length_capitalized fun _ => isWordChar_capitalized

theorem countP_exportedChars (name : List Char) :
    (exportedChars name).countP isWordChar = name.countP isWordChar :=
  countP_flatMap_wordsOfChars length_exportedWord fun _ => isWordChar_exportedWord

theorem countP_camelChars (name : List Char) :
    (camelChars name).countP isWordChar = name.countP isWordChar := by
  have hcount := countP_pascalChars name
  unfold camelChars
  cases hpascal : pascalChars name with
  | nil => rwa [hpascal] at hcount
  | cons c rest =>
      have hmem : c ∈ pascalChars name := by simp [hpascal]
      have hc : isWordChar c = true := isWordChar_pascalChars hmem
      rw [hpascal, List.countP_cons_of_pos hc] at hcount
      rw [List.countP_cons_of_pos (isWordChar_toLower hc), hcount]

/-- Underscores are no letters. -/
theorem countP_snakeChars (name : List Char) :
    (snakeChars name).countP isWordChar = name.countP isWordChar := by
  have hintercalate : ∀ parts : List (List Char),
      (List.intercalate ['_'] parts).countP isWordChar = parts.flatten.countP isWordChar := by
    intro parts
    induction parts with
    | nil => rfl
    | cons part rest ih =>
        by_cases hrest : rest = []
        · simp [hrest, List.intercalate]
        · have hmark : isWordChar '_' = false := by decide
          rw [List.intercalate_cons_of_ne_nil hrest]
          simp [ih, hmark]
  have hwords : (snakeChars name).countP isWordChar =
      ((wordsOfChars name).flatMap lowered).countP isWordChar := by
    rw [snakeChars, hintercalate, List.flatMap_def]
  rw [hwords]
  exact countP_flatMap_wordsOfChars (fun word => by simp [lowered]) fun _ => isWordChar_lowered

/-- Members in Rust may have letters besides. -/
theorem countP_le_rustMember (name : String) :
    name.toList.countP isWordChar ≤ (rustMember name).toList.countP isWordChar := by
  have hsnake : (snake name).toList.countP isWordChar = name.toList.countP isWordChar := by
    rw [snake, String.toList_ofList, countP_snakeChars]
  unfold rustMember escapeRustKeyword
  split
  · rw [String.toList_append, List.countP_append, hsnake]
    exact Nat.le_add_right _ _
  · split
    · rw [String.toList_append, List.countP_append, hsnake]
      exact Nat.le_add_left _ _
    · exact hsnake.ge

end Name

/-- What holds of the five casings holds of what a language writes, where that is not the
name itself. -/
theorem Language.of_casings {P : (String → String) → Prop} {language : Language} {role : Role}
    (hrole : language ≠ .typescript ∨ role ≠ .field) (hpascal : P Name.pascal)
    (hexported : P Name.exported) (hcamel : P Name.camel) (hsnake : P Name.snake)
    (hmember : P Name.rustMember) : P (language.casing role) := by
  cases language with
  | go => exact hexported
  | rust =>
      cases role with
      | declaration => exact hpascal
      | _ => exact hmember
  | typescript =>
      cases role with
      | declaration => exact hpascal
      | method => exact hcamel
      | field => simp at hrole
  | ruby =>
      cases role with
      | declaration => exact hpascal
      | _ => exact hsnake

/-- **Casings lose no letter and no digit of a name.** -/
theorem Language.countP_le_casing (language : Language) (role : Role) (name : String) :
    name.toList.countP Name.isWordChar ≤
      (language.casing role name).toList.countP Name.isWordChar := by
  have hpascal : (Name.pascal name).toList.countP Name.isWordChar =
      name.toList.countP Name.isWordChar := by
    rw [Name.pascal, String.toList_ofList, Name.countP_pascalChars]
  have hexported : (Name.exported name).toList.countP Name.isWordChar =
      name.toList.countP Name.isWordChar := by
    rw [Name.exported, String.toList_ofList, Name.countP_exportedChars]
  have hcamel : (Name.camel name).toList.countP Name.isWordChar =
      name.toList.countP Name.isWordChar := by
    rw [Name.camel, String.toList_ofList, Name.countP_camelChars]
  have hsnake : (Name.snake name).toList.countP Name.isWordChar =
      name.toList.countP Name.isWordChar := by
    rw [Name.snake, String.toList_ofList, Name.countP_snakeChars]
  by_cases hrole : language ≠ .typescript ∨ role ≠ .field
  · exact of_casings (P := fun write => name.toList.countP Name.isWordChar ≤
        (write name).toList.countP Name.isWordChar) hrole hpascal.ge hexported.ge hcamel.ge
      hsnake.ge (Name.countP_le_rustMember name)
  · obtain ⟨rfl, rfl⟩ : language = .typescript ∧ role = .field := by simpa using hrole
    exact le_rfl

/-- Declarations are named in pascal form, except in Go. -/
theorem Language.casing_declaration {language : Language} (h : language ≠ .go) (name : String) :
    language.casing .declaration name = Name.pascal name := by
  cases language with
  | go => contradiction
  | _ => rfl

/-- **Declarations are called by letters and digits.** -/
theorem Language.isWordChar_of_declaration {language : Language} {name : String} {c : Char}
    (hc : c ∈ (language.casing .declaration name).toList) : Name.isWordChar c = true := by
  cases language with
  | go => exact Name.isWordChar_exportedChars (by simpa [casing, Name.exported] using hc)
  | _ => exact Name.isWordChar_pascalChars (by simpa [casing, Name.pascal] using hc)

/-- Where identifiers are not the names themselves, they stay on one line. -/
theorem Language.notMem_casing {language : Language} {role : Role}
    (h : language ≠ .typescript ∨ role ≠ .field) (name : String) :
    '\n' ∉ (language.casing role name).toList := by
  have hexported : '\n' ∉ (Name.exported name).toList := by
    rw [Name.exported, String.toList_ofList]
    exact fun hc => absurd (Name.isWordChar_exportedChars hc) (by decide)
  have hpascal : '\n' ∉ (Name.pascal name).toList := by
    rw [Name.pascal, String.toList_ofList]
    exact fun hc => absurd (Name.isWordChar_pascalChars hc) (by decide)
  have hcamel : '\n' ∉ (Name.camel name).toList := by
    rw [Name.camel, String.toList_ofList]
    exact fun hc => absurd (Name.isWordChar_camelChars hc) (by decide)
  have hmember : '\n' ∉ (Name.rustMember name).toList :=
    fun hc => absurd (Name.isWordChar_rustMember hc) (by decide)
  have hsnake : '\n' ∉ (Name.snake name).toList := by
    rw [Name.snake, String.toList_ofList]
    exact fun hc => absurd (Name.isWordChar_snakeChars hc) (by decide)
  exact of_casings (P := fun write => '\n' ∉ (write name).toList) h hpascal hexported hcamel hsnake
    hmember

/-- Declarations stay on one line in every language. -/
theorem Language.notMem_of_declaration (language : Language) (name : String) :
    '\n' ∉ (language.casing .declaration name).toList :=
  fun hc => absurd (isWordChar_of_declaration hc) (by decide)

end RpcBindings
