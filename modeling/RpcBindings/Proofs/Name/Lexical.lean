import RpcBindings.Proofs.Name.Keyword
import RpcBindings.Target.Rust

/-!
# RpcBindings.Proofs.Name.Lexical

Identifiers as the languages read them.  Whatever a name holds, its identifier consists of
letters, digits and underscores; and it begins with the first letter or digit of the name, in
the one case or the other.  So it is an identifier of the language if that is a letter, and
none if it is a digit (`identifier_isLexical_iff`).
-/

namespace RpcBindings

/-! ## What is read -/

/-- The characters of an identifier without the mark that a member in Rust may have. -/
def Language.spelled (language : Language) (role : Role) (identifier : String) : List Char :=
  match language, role with
  | .rust, .method | .rust, .field => (Rust.plainIdentifier identifier).toList
  | _, _ => identifier.toList

/-- An identifier that the language can read, and in Go one that is exported. -/
structure Language.IsLexical (language : Language) (role : Role) (identifier : String) : Prop where
  chars : ∀ c ∈ language.spelled role identifier, Name.isWordChar c = true ∨ c = '_'
  start : ∃ c ∈ (language.spelled role identifier).head?, c.isAlpha = true ∨ c = '_'
  exported : language = .go → ∃ c ∈ identifier.toList.head?, c.isUpper = true

namespace Name

variable {c : Char} {sep : List Char} {parts : List (List Char)} {name : String}

/-! ## First characters -/

/-- Words that are written one after the other begin with the first letter of the name. -/
theorem head?_flatMap_wordsOfChars {write : List Char → List Char} {f : Char → Char}
    (hwrite : ∀ c word, (write (c :: word)).head? = some (f c)) (name : List Char) :
    ((wordsOfChars name).flatMap write).head? = (name.find? isWordChar).map f := by
  rw [← List.head?_filter, ← flatten_wordsOfChars]
  cases hwords : wordsOfChars name with
  | nil => rfl
  | cons word rest =>
      have hne : word ≠ [] := (areWords name word (hwords ▸ List.mem_cons_self)).1
      cases word with
      | nil => contradiction
      | cons c tail => simp [List.head?_append, hwrite]

/-- Joined parts start as the first of them does. -/
theorem head?_intercalate (h : ∀ part ∈ parts, part ≠ []) :
    (sep.intercalate parts).head? = parts.flatten.head? := by
  cases parts with
  | nil => simp [List.intercalate]
  | cons part rest =>
      have hpart := h part List.mem_cons_self
      cases part with
      | nil => contradiction
      | cons c tail =>
          by_cases hrest : rest = []
          · simp [hrest]
          · simp [List.intercalate_cons_of_ne_nil hrest]

/-- The pascal form starts with the first character of a word, in upper case. -/
theorem head?_pascalChars (name : List Char) :
    (pascalChars name).head? = (name.find? isWordChar).map Char.toUpper :=
  head?_flatMap_wordsOfChars (fun _ _ => rfl) name

theorem head?_exportedChars (name : List Char) :
    (exportedChars name).head? = (name.find? isWordChar).map Char.toUpper := by
  refine head?_flatMap_wordsOfChars (fun c word => ?_) name
  unfold exportedWord
  split <;> rfl

theorem head?_camelChars (name : List Char) :
    (camelChars name).head? = (name.find? isWordChar).map Char.toLower := by
  have hcamel : (camelChars name).head? = (pascalChars name).head?.map Char.toLower := by
    unfold camelChars
    cases pascalChars name <;> rfl
  rw [hcamel, head?_pascalChars, Option.map_map]
  exact Option.map_congr fun c hc => toLower_toUpper (List.find?_some hc)

theorem head?_snakeChars (name : List Char) :
    (snakeChars name).head? = (name.find? isWordChar).map Char.toLower := by
  have hne : ∀ word ∈ (wordsOfChars name).map lowered, word ≠ [] :=
    List.forall_mem_map.2 fun word hword => by simpa [lowered] using (areWords name word hword).1
  rw [snakeChars, head?_intercalate hne, ← List.flatMap_def]
  exact head?_flatMap_wordsOfChars (fun _ _ => rfl) name

/-! ## Members in Rust -/

/-- An identifier without a mark is a plain one. -/
theorem plainIdentifier_of_notMem (h : '#' ∉ name.toList) : Rust.plainIdentifier name = name := by
  unfold Rust.plainIdentifier
  split
  · next hraw => simp [hraw] at h
  · rfl

/-- Without the mark of raw identifiers a member is the snake case of its name, or one of the
path keywords with an underscore. -/
theorem plainIdentifier_rustMember (name : String) :
    Rust.plainIdentifier (rustMember name) = snake name ∨
      snake name ∈ rustPathKeywords ∧
        Rust.plainIdentifier (rustMember name) = snake name ++ "_" := by
  rcases rustMember_cases name with
    ⟨-, heq⟩ | ⟨keyword, -, -, hsnake, heq⟩ | ⟨keyword, hkeyword, hsnake, heq⟩
  · rw [heq]
    exact .inl (plainIdentifier_of_notMem (notMem_snake name))
  · rw [heq, hsnake, Rust.plainIdentifier, String.toList_append]
    exact .inl String.ofList_toList
  · have hnot : '#' ∉ (snake name ++ "_").toList := by
      simpa [String.toList_append] using notMem_snake name
    rw [heq, ← hsnake]
    exact .inr ⟨hsnake ▸ hkeyword, plainIdentifier_of_notMem hnot⟩

/-- A Rust member holds characters of words and underscores only, apart from its mark. -/
theorem isWordChar_plainIdentifier (hc : c ∈ (Rust.plainIdentifier (rustMember name)).toList) :
    isWordChar c = true ∨ c = '_' := by
  have hsnake : ∀ c ∈ (snake name).toList, isWordChar c = true ∨ c = '_' := by
    rw [snake, String.toList_ofList]
    exact fun c hc => isWordChar_snakeChars hc
  rcases plainIdentifier_rustMember name with heq | ⟨-, heq⟩
  · exact hsnake c (heq ▸ hc)
  · rw [heq, String.toList_append, List.mem_append] at hc
    exact hc.elim (hsnake c) fun hc => .inr (by simpa using hc)

/-- A Rust member starts with the first character of a word in lower case, apart from its mark. -/
theorem head?_plainIdentifier (name : String) :
    (Rust.plainIdentifier (rustMember name)).toList.head? =
      (name.toList.find? isWordChar).map Char.toLower := by
  have hsnake : (snake name).toList.head? = (name.toList.find? isWordChar).map Char.toLower := by
    rw [snake, String.toList_ofList, head?_snakeChars]
  rcases plainIdentifier_rustMember name with heq | ⟨hkeyword, heq⟩
  · rw [heq, hsnake]
  · have hne : ∀ keyword ∈ rustPathKeywords, keyword.toList.head?.isSome = true := by decide
    rw [heq, String.toList_append, List.head?_append, ← hsnake]
    exact Option.or_of_isSome (hne _ hkeyword)

/-! ## First letters in both cases -/

theorem isAlpha_toUpper (h : isWordChar c = true) : c.toUpper.isAlpha = c.isAlpha :=
  of_isWordChar (P := fun c => c.toUpper.isAlpha = c.isAlpha) (by decide) h

theorem isAlpha_toLower (h : isWordChar c = true) : c.toLower.isAlpha = c.isAlpha :=
  of_isWordChar (P := fun c => c.toLower.isAlpha = c.isAlpha) (by decide) h

theorem isUpper_toUpper (h : isWordChar c = true) : c.toUpper.isUpper = c.isAlpha :=
  of_isWordChar (P := fun c => c.toUpper.isUpper = c.isAlpha) (by decide) h

theorem ne_underscore_of_isWordChar (h : isWordChar c = true) : c ≠ '_' := by
  rintro rfl
  contradiction

end Name

namespace Language

variable {language : Language} {role : Role} {name identifier : String}

/-! ## Identifiers -/

/-- What holds of the five casings without the mark holds of what a language writes. -/
theorem of_spelled {P : List Char → Prop} (hpascal : P (Name.pascalChars name.toList))
    (hexported : P (Name.exportedChars name.toList)) (hcamel : P (Name.camelChars name.toList))
    (hsnake : P (Name.snakeChars name.toList))
    (hmember : P (Rust.plainIdentifier (Name.rustMember name)).toList)
    (hrole : language ≠ .typescript ∨ role ≠ .field) :
    P (language.spelled role (language.casing role name)) := by
  rw [← String.toList_ofList (l := Name.pascalChars _), ← Name.pascal] at hpascal
  rw [← String.toList_ofList (l := Name.exportedChars _), ← Name.exported] at hexported
  rw [← String.toList_ofList (l := Name.camelChars _), ← Name.camel] at hcamel
  rw [← String.toList_ofList (l := Name.snakeChars _), ← Name.snake] at hsnake
  cases language with
  | go => exact hexported
  | rust =>
      cases role with
      | declaration => exact hpascal
      | _ => exact hmember
  | typescript =>
      cases role with
      | declaration => exact hpascal
      | method => exact hcamel
      | field => simp at hrole
  | ruby =>
      cases role with
      | declaration => exact hpascal
      | _ => exact hsnake

/-- Identifiers consist of letters, digits and underscores. -/
theorem isWordChar_spelled (hrole : language ≠ .typescript ∨ role ≠ .field) (name : String) :
    ∀ c ∈ language.spelled role (language.casing role name),
      Name.isWordChar c = true ∨ c = '_' :=
  of_spelled (P := fun cs => ∀ c ∈ cs, Name.isWordChar c = true ∨ c = '_')
    (fun _ hc => .inl (Name.isWordChar_pascalChars hc))
    (fun _ hc => .inl (Name.isWordChar_exportedChars hc))
    (fun _ hc => .inl (Name.isWordChar_camelChars hc))
    (fun _ hc => Name.isWordChar_snakeChars hc)
    (fun _ hc => Name.isWordChar_plainIdentifier hc) hrole

/-- Identifiers begin with the first letter or digit of the name. -/
theorem head?_spelled (hrole : language ≠ .typescript ∨ role ≠ .field) (name : String) :
    ∃ f ∈ [Char.toUpper, Char.toLower],
      (language.spelled role (language.casing role name)).head? =
        (name.toList.find? Name.isWordChar).map f := by
  have hupper : Char.toUpper ∈ [Char.toUpper, Char.toLower] := List.mem_cons_self
  have hlower : Char.toLower ∈ [Char.toUpper, Char.toLower] :=
    List.mem_cons_of_mem _ List.mem_cons_self
  exact of_spelled (P := fun cs => ∃ f ∈ [Char.toUpper, Char.toLower],
      cs.head? = (name.toList.find? Name.isWordChar).map f)
    ⟨_, hupper, Name.head?_pascalChars _⟩ ⟨_, hupper, Name.head?_exportedChars _⟩
    ⟨_, hlower, Name.head?_camelChars _⟩ ⟨_, hlower, Name.head?_snakeChars _⟩
    ⟨_, hlower, Name.head?_plainIdentifier name⟩ hrole

/-- Both cases of a letter or digit are a letter, or both are not. -/
theorem isAlpha_of_mem {c : Char} (hc : Name.isWordChar c = true) {f : Char → Char}
    (hf : f ∈ [Char.toUpper, Char.toLower]) :
    Name.isWordChar (f c) = true ∧ (f c).isAlpha = c.isAlpha ∧ (f c).toLower = c.toLower := by
  simp only [List.mem_cons, List.not_mem_nil, or_false] at hf
  obtain rfl | rfl := hf
  · exact ⟨Name.isWordChar_toUpper hc, Name.isAlpha_toUpper hc, Name.toLower_toUpper hc⟩
  · exact ⟨Name.isWordChar_toLower hc, Name.isAlpha_toLower hc, Name.toLower_toLower hc⟩

/-- **Identifiers are lexically valid, but for a digit in front.**  The identifier of a name
consists of letters, digits and underscores and begins with the first letter or digit of the
name; the language can read it, and in Go it is exported, if and only if that is a letter. -/
theorem identifier_isLexical_iff (hrole : language ≠ .typescript ∨ role ≠ .field)
    (h : language.identifier role name = .ok identifier) :
    (∀ c ∈ language.spelled role identifier, Name.isWordChar c = true ∨ c = '_') ∧
      (language.spelled role identifier).head?.map Char.toLower =
        (name.toList.find? Name.isWordChar).map Char.toLower ∧
      (language.IsLexical role identifier ↔
        ∃ c ∈ name.toList.find? Name.isWordChar, c.isAlpha = true) := by
  obtain rfl := casing_of_identifier h
  have hchars := isWordChar_spelled hrole name
  obtain ⟨f, hf, hhead⟩ := head?_spelled hrole name
  cases hfind : name.toList.find? Name.isWordChar with
  | none =>
      rw [hfind] at hhead
      refine ⟨hchars, by rw [hhead]; rfl, ?_⟩
      simp only [Option.not_mem_none, false_and, exists_false, iff_false]
      rintro ⟨-, ⟨c, hc, -⟩, -⟩
      rw [hhead] at hc
      contradiction
  | some first =>
      rw [hfind] at hhead
      obtain ⟨hword, halpha, hlower⟩ := isAlpha_of_mem (List.find?_some hfind) hf
      refine ⟨hchars, by rw [hhead]; exact congrArg some hlower, ?_⟩
      constructor
      · rintro ⟨-, ⟨c, hc, hstart⟩, -⟩
        obtain rfl : f first = c := Option.some.inj (hhead.symm.trans hc)
        have hletter := hstart.resolve_right (Name.ne_underscore_of_isWordChar hword)
        exact ⟨first, rfl, halpha ▸ hletter⟩
      · rintro ⟨c, hc, hletter⟩
        obtain rfl : first = c := Option.some.inj hc
        refine ⟨hchars, ⟨f first, hhead, .inl (halpha.trans hletter)⟩, ?_⟩
        rintro rfl
        refine ⟨first.toUpper, ?_, ?_⟩
        · have hexported := Name.head?_exportedChars name.toList
          rw [hfind] at hexported
          simpa [casing, Name.exported] using hexported
        · exact (Name.isUpper_toUpper (List.find?_some hfind)).trans hletter

/-- A keyword of Rust is a raw identifier as a member. -/
theorem try_identifier_isLexical :
    (Language.rust ≠ .typescript ∨ Role.field ≠ .field) ∧
      Language.rust.identifier .field "-Try" = .ok "r#try" ∧
      Language.rust.IsLexical .field "r#try" := by
  have hrole : Language.rust ≠ .typescript ∨ Role.field ≠ .field := .inl (by decide)
  have hidentifier : Language.rust.identifier .field "-Try" = .ok "r#try" := rfl
  exact ⟨hrole, hidentifier,
    (identifier_isLexical_iff hrole hidentifier).2.2.2 ⟨'T', rfl, by decide⟩⟩

/-- A name that begins with a digit has an identifier, which Go cannot read. -/
theorem digit_identifier_not_isLexical :
    Language.go.identifier .declaration "2fa" = .ok "2fa" ∧
      ¬ Language.go.IsLexical .declaration "2fa" := by
  refine ⟨rfl, ?_⟩
  rintro ⟨-, ⟨c, hc, hstart⟩, -⟩
  obtain rfl : '2' = c := Option.some.inj hc
  exact absurd hstart (by decide)

end Language

end RpcBindings
