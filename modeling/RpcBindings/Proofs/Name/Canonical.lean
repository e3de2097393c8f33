import RpcBindings.Proofs.Name.Scope
import RpcBindings.Proofs.Name.Spelling

/-!
# RpcBindings.Proofs.Name.Canonical

Snake case as the canonical form of a name.  It has no capitals, so it is split at its
underscores only, and splitting it gives the words of the name back in lower case.  As all
other casings see no more of a name than these words, they are the same on the name and on
its snake case, and names with one snake case have one identifier wherever identifiers are
not the names themselves.
-/

namespace RpcBindings

namespace Name

variable {c : Char} {word : List Char} {parts : List (List Char)} {name other : String}

/-! ## Words in lower case -/

theorem not_isUpper_toLower (h : isWordChar c = true) : c.toLower.isUpper = false :=
  of_isWordChar (P := fun c => c.toLower.isUpper = false) (by decide) h

/-- Lowering a word twice is lowering it once. -/
theorem lowered_lowered (h : ∀ c ∈ word, isWordChar c = true) :
    lowered (lowered word) = lowered word := by
  rw [lowered, lowered, List.map_map]
  exact List.map_congr_left fun c hc => toLower_toLower (h c hc)

/-- A word in upper case does not depend on the case it had. -/
theorem uppered_lowered (h : ∀ c ∈ word, isWordChar c = true) :
    uppered (lowered word) = uppered word := by
  rw [uppered, lowered, uppered, List.map_map]
  exact List.map_congr_left fun c hc => toUpper_toLower (h c hc)

/-- The exported form of a word does not depend on its case. -/
theorem exportedWord_lowered (h : ∀ c ∈ word, isWordChar c = true) :
    exportedWord (lowered word) = exportedWord word := by
  rw [exportedWord, exportedWord, uppered_lowered h, capitalized_lowered h]

/-- A run of letters and digits without capitals is one word. -/
theorem wordsOfChars_of_small (hne : word ≠ []) (hchars : ∀ c ∈ word, isWordChar c = true)
    (hsmall : ∀ c ∈ word, c.isUpper = false) : wordsOfChars word = [word] := by
  induction word with
  | nil => contradiction
  | cons c rest ih =>
      rw [List.forall_mem_cons] at hchars hsmall
      cases rest with
      | nil => simp [wordsOfChars, continues, hchars.1]
      | cons d more =>
          have hcontinues : continues c (d :: more) = true := by
            simp [continues, breaksBetween, hchars.2 d List.mem_cons_self,
              hsmall.2 d List.mem_cons_self]
          rw [wordsOfChars, hchars.1, hcontinues, ih (List.cons_ne_nil d more) hchars.2 hsmall.2]
          rfl

/-- A word in lower case is one word again. -/
theorem wordsOfChars_lowered (hne : word ≠ []) (h : ∀ c ∈ word, isWordChar c = true) :
    wordsOfChars (lowered word) = [lowered word] := by
  apply wordsOfChars_of_small
  · simpa [lowered] using hne
  · exact isWordChar_lowered h
  · exact List.forall_mem_map.2 fun c hc => not_isUpper_toLower (h c hc)

/-- Words that are joined by underscores are split there again. -/
theorem wordsOfChars_intercalate (h : ∀ word ∈ parts, wordsOfChars word = [word]) :
    wordsOfChars (['_'].intercalate parts) = parts := by
  induction parts with
  | nil => rfl
  | cons word rest ih =>
      rw [List.forall_mem_cons] at h
      by_cases hrest : rest = []
      · subst hrest
        rw [List.intercalate_singleton, h.1]
      · rw [List.intercalate_cons_of_ne_nil hrest, List.append_assoc, List.singleton_append,
          wordsOfChars_append_sep (by decide), h.1, ih h.2, List.singleton_append]

/-- **Snake case is split into the words of the name in lower case.** -/
theorem wordsOfChars_snakeChars (name : List Char) :
    wordsOfChars (snakeChars name) = (wordsOfChars name).map lowered := by
  apply wordsOfChars_intercalate
  rw [List.forall_mem_map]
  intro word hword
  obtain ⟨hne, hchars⟩ := areWords name word hword
  exact wordsOfChars_lowered hne hchars

/-- The words of a name are those of its snake form. -/
theorem lowerWords_snake (name : String) : lowerWords (snake name) = lowerWords name := by
  rw [lowerWords, snake, String.toList_ofList, wordsOfChars_snakeChars, List.map_map]
  exact List.map_congr_left fun word hword => lowered_lowered (areWords _ word hword).2

/-! ## What casings see of a name -/

/-- Two names have one snake form exactly where they have the same words. -/
theorem snake_eq_iff : snake name = snake other ↔ lowerWords name = lowerWords other := by
  constructor
  · intro h
    rw [← lowerWords_snake name, h, lowerWords_snake]
  · intro h
    exact congrArg (fun parts => String.ofList (['_'].intercalate parts)) h

/-- Names with one pascal form have one camel form. -/
theorem camel_eq_of_pascal (h : pascal name = pascal other) : camel name = camel other := by
  have hchars : pascalChars name.toList = pascalChars other.toList := String.ofList_injective h
  rw [camel, camel, camelChars, camelChars, hchars]

/-- Names with the same words have one exported form. -/
theorem exported_eq_of_lowerWords (h : lowerWords name = lowerWords other) :
    exported name = exported other := by
  rw [exported, exported, exportedChars, exportedChars,
    ← flatMap_lowerWords (fun _ => exportedWord_lowered), h, flatMap_lowerWords]
  exact fun _ => exportedWord_lowered

/-- Names with the same words have one Rust member form. -/
theorem rustMember_eq_of_lowerWords (h : lowerWords name = lowerWords other) :
    rustMember name = rustMember other := by
  rw [rustMember, rustMember, snake_eq_iff.2 h]

theorem map_toLower_words (name : String) :
    (words name).map String.toLower = (lowerWords name).map String.ofList := by
  rw [words, lowerWords, List.map_map, List.map_map]
  refine List.map_congr_left fun word _ => String.toList_injective ?_
  calc ((String.ofList word).map Char.toLower).toList
      = (String.ofList word).toList.map Char.toLower := String.toList_map
    _ = (String.ofList (lowered word)).toList := by
        rw [String.toList_ofList, String.toList_ofList, lowered]

/-- The words in lower case determine the lists of characters, and conversely. -/
theorem map_toLower_words_inj :
    (words name).map String.toLower = (words other).map String.toLower ↔
      lowerWords name = lowerWords other := by
  rw [map_toLower_words, map_toLower_words]
  exact (List.map_injective_iff.2 fun _ _ => String.ofList_injective).eq_iff

end Name

/-- Identifiers show no more of a name than its words in lower case, where they are not the
names themselves. -/
theorem Language.casing_eq_of_lowerWords {language : Language} {role : Role} {name other : String}
    (hrole : language ≠ .typescript ∨ role ≠ .field)
    (h : Name.lowerWords name = Name.lowerWords other) :
    language.casing role name = language.casing role other := by
  have hpascal := Name.pascal_eq_of_lowerWords h
  exact of_casings (P := fun write => write name = write other) hrole hpascal
    (Name.exported_eq_of_lowerWords h) (Name.camel_eq_of_pascal hpascal) (Name.snake_eq_iff.2 h)
    (Name.rustMember_eq_of_lowerWords h)

namespace Name

/-- **Snake case is a canonical form for all casings.**  It is split into the words of the name
in lower case, and so every casing is the same on it as on the name; two names have one snake
case if and only if they have the same words in lower case, and then they have the same
identifier in every language and role but that of fields in TypeScript, or none. -/
theorem snake_canonical (name other : String) :
    words (snake name) = (words name).map String.toLower ∧
      snake (snake name) = snake name ∧
      pascal (snake name) = pascal name ∧
      camel (snake name) = camel name ∧
      exported (snake name) = exported name ∧
      rustMember (snake name) = rustMember name ∧
      (snake name = snake other ↔
        (words name).map String.toLower = (words other).map String.toLower) ∧
      (snake name = snake other →
        ∀ (language : Language) (role : Role), language ≠ .typescript ∨ role ≠ .field →
          ∀ identifier, language.identifier role name = .ok identifier ↔
            language.identifier role other = .ok identifier) := by
  have hwords := lowerWords_snake name
  have hpascal := pascal_eq_of_lowerWords hwords
  refine ⟨?_, snake_eq_iff.2 hwords, hpascal, camel_eq_of_pascal hpascal,
    exported_eq_of_lowerWords hwords, rustMember_eq_of_lowerWords hwords,
    snake_eq_iff.trans map_toLower_words_inj.symm, ?_⟩
  · rw [words, snake, String.toList_ofList, wordsOfChars_snakeChars, map_toLower_words]
    rfl
  · intro h language role hrole identifier
    rw [Language.identifier_eq_ok_iff, Language.identifier_eq_ok_iff,
      Language.casing_eq_of_lowerWords hrole (snake_eq_iff.1 h)]

/-- Two names that are written with and without capitals are one member in Rust. -/
theorem server_snake_canonical :
    snake "TYPEServer2" = snake "type-server2" ∧
      (Language.rust ≠ .typescript ∨ Role.method ≠ .field) ∧
      words (snake "TYPEServer2") = ["type", "server2"] ∧
      (∀ identifier, Language.rust.identifier .method "TYPEServer2" = .ok identifier ↔
        Language.rust.identifier .method "type-server2" = .ok identifier) := by
  have hsnake : snake "TYPEServer2" = snake "type-server2" := rfl
  have hrole : Language.rust ≠ .typescript ∨ Role.method ≠ .field := .inl (by decide)
  have hcanonical := snake_canonical "TYPEServer2" "type-server2"
  refine ⟨hsnake, hrole, hcanonical.1.trans (map_toLower_words _), ?_⟩
  exact hcanonical.2.2.2.2.2.2.2 hsnake .rust .method hrole

end Name

end RpcBindings
