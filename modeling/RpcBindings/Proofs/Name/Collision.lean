import RpcBindings.Proofs.Name.Canonical

/-!
# RpcBindings.Proofs.Name.Collision

The names that have one identifier in Pascal or camel case.  Both casings show where a word
begins by its capital, and a digit has none: a word that begins with a digit is not told from
the end of the word before it.  Nothing else is lost.  An identifier is cut in front of its
capitals (`humps`), and that gives the words of the name in lower case, each that begins with
a digit put behind the word before (`glued`); so two names collide if and only if their words
are the same when they are glued.
-/

namespace RpcBindings.Name

variable {c : Char} {word next small more : List Char} {parts : List (List Char)}
  {name other : String}

theorem isWordChar_of_isDigit (h : c.isDigit = true) : isWordChar c = true :=
  isWordChar_iff.2 (.inr (.inr h))

theorem toLower_of_isDigit (h : c.isDigit = true) : c.toLower = c :=
  of_isWordChar (P := fun c => c.isDigit = true → c.toLower = c) (by decide)
    (isWordChar_of_isDigit h) h

theorem toUpper_of_isDigit (h : c.isDigit = true) : c.toUpper = c :=
  of_isWordChar (P := fun c => c.isDigit = true → c.toUpper = c) (by decide)
    (isWordChar_of_isDigit h) h

theorem not_isDigit_toLower_of_isUpper (h : c.isUpper = true) : c.toLower.isDigit = false :=
  of_isWordChar (P := fun c => c.isUpper = true → c.toLower.isDigit = false) (by decide)
    (isWordChar_iff.2 (.inl h)) h

/-! ## Words that begin with a digit -/

/-- Whether a word begins with a digit. -/
def startsWithDigit (word : List Char) : Bool :=
  word.head?.any Char.isDigit

/-- Puts a word in front of others; if the first of them begins with a digit, it goes on with
that word. -/
def glueOnto (word : List Char) : List (List Char) → List (List Char)
  | [] => [word]
  | next :: rest =>
    if startsWithDigit next then (word ++ next) :: rest else word :: next :: rest

/-- Words, each that begins with a digit put behind the word before it. -/
def glued (parts : List (List Char)) : List (List Char) :=
  parts.foldr glueOnto []

/-- A character in front goes to the first of the glued words. -/
theorem extendFirst_glueOnto (c : Char) (word : List Char) (parts : List (List Char)) :
    extendFirst c (glueOnto word parts) = glueOnto (c :: word) parts := by
  cases parts with
  | nil => rfl
  | cons next rest =>
      simp only [glueOnto]
      split <;> rfl

/-- A digit is the same with and without a capital. -/
theorem capitalized_append (hne : word ≠ []) (hdigit : startsWithDigit next = true) :
    capitalized (word ++ next) = capitalized word ++ capitalized next := by
  cases word with
  | nil => contradiction
  | cons c rest =>
      cases next with
      | nil => contradiction
      | cons d more =>
          have hd : d.isDigit = true := hdigit
          simp [capitalized, toLower_of_isDigit hd, toUpper_of_isDigit hd]

/-- Gluing changes nothing about the capitalized words in one text. -/
theorem flatMap_capitalized_glueOnto (hne : word ≠ []) (parts : List (List Char)) :
    (glueOnto word parts).flatMap capitalized = capitalized word ++ parts.flatMap capitalized := by
  cases parts with
  | nil => simp [glueOnto]
  | cons next rest =>
      simp only [glueOnto]
      split
      · next hdigit =>
        rw [List.flatMap_cons, capitalized_append hne hdigit, List.flatMap_cons,
          List.append_assoc]
      · rfl

/-- Pascal case does not see where words are glued. -/
theorem flatMap_capitalized_glued (h : ∀ word ∈ parts, word ≠ []) :
    (glued parts).flatMap capitalized = parts.flatMap capitalized := by
  induction parts with
  | nil => rfl
  | cons word rest ih =>
      rw [List.forall_mem_cons] at h
      rw [glued, List.foldr_cons, flatMap_capitalized_glueOnto h.1, ← glued, ih h.2,
        List.flatMap_cons]

/-! ## Identifiers that are cut at their capitals -/

/-- Cuts an identifier in front of its capitals, and writes it in lower case. -/
def humps : List Char → List (List Char)
  | [] => []
  | c :: rest =>
    if rest.head?.any Char.isUpper then [c.toLower] :: humps rest
    else extendFirst c.toLower (humps rest)

/-- The first hump starts with the first character, in lower case. -/
theorem exists_humps_cons (c : Char) (rest : List Char) :
    ∃ word parts, humps (c :: rest) = (c.toLower :: word) :: parts := by
  rw [humps]
  split
  · exact ⟨[], humps rest, rfl⟩
  · cases humps rest with
    | nil => exact ⟨[], [], rfl⟩
    | cons word parts => exact ⟨word, parts, rfl⟩

/-- A word without further capitals is the first hump, as far as no digit goes on with it. -/
theorem humps_append (hsmall : ∀ d ∈ small, d.isUpper = false)
    (hmore : ∀ d ∈ more.head?, isWordChar d = true ∧ d.isLower = false) :
    humps (c :: (small ++ more)) = glueOnto ((c :: small).map Char.toLower) (humps more) := by
  induction small generalizing c with
  | nil =>
      cases more with
      | nil => rfl
      | cons d rest =>
          obtain ⟨hd, hlower⟩ := hmore d rfl
          obtain ⟨word, parts, hhumps⟩ := exists_humps_cons d rest
          rw [List.nil_append, humps, hhumps]
          cases hupper : d.isUpper with
          | true =>
              simp [glueOnto, startsWithDigit, hupper, not_isDigit_toLower_of_isUpper hupper]
          | false =>
              have hdigit : d.isDigit = true := by simpa [isWordChar_iff, hupper, hlower] using hd
              simp [glueOnto, startsWithDigit, hupper, toLower_of_isDigit hdigit, hdigit,
                extendFirst]
  | cons d rest ih =>
      rw [List.forall_mem_cons] at hsmall
      rw [List.cons_append, humps, ih hsmall.2, extendFirst_glueOnto]
      simp [hsmall.1]

/-- Capitalized words hold characters of words only. -/
theorem isWordChar_flatMap_capitalized (h : AreWords parts) :
    ∀ c ∈ parts.flatMap capitalized, isWordChar c = true := by
  intro c hc
  obtain ⟨word, hword, hc⟩ := List.mem_flatMap.1 hc
  exact isWordChar_capitalized (h word hword).2 c hc

/-- **The humps of capitalized words are the words, glued.** -/
theorem humps_flatMap_capitalized (h : AreWords parts) :
    humps (parts.flatMap capitalized) = glued (parts.map lowered) := by
  induction parts with
  | nil => rfl
  | cons word rest ih =>
      obtain ⟨⟨hne, hchars⟩, hrest⟩ := List.forall_mem_cons.1 h
      cases word with
      | nil => exact absurd rfl hne
      | cons c tail =>
          rw [List.forall_mem_cons] at hchars
          have hsmall : ∀ d ∈ tail.map Char.toLower, d.isUpper = false :=
            List.forall_mem_map.2 fun d hd => not_isUpper_toLower (hchars.2 d hd)
          have hmore : ∀ d ∈ (rest.flatMap capitalized).head?,
              isWordChar d = true ∧ d.isLower = false := fun d hd =>
            ⟨isWordChar_flatMap_capitalized hrest d (List.mem_of_mem_head? hd),
              AreWords.head hrest d hd⟩
          have hlowered : (c.toUpper :: tail.map Char.toLower).map Char.toLower =
              lowered (c :: tail) := by
            rw [List.map_cons, toLower_toUpper hchars.1]
            exact congrArg _ (lowered_lowered hchars.2)
          rw [List.flatMap_cons, capitalized, List.cons_append, humps_append hsmall hmore,
            hlowered, ih hrest]
          rfl

/-- A first letter shows nothing by its case. -/
theorem humps_toLower (hc : isWordChar c = true) (rest : List Char) :
    humps (c.toLower :: rest) = humps (c :: rest) := by
  rw [humps, humps, toLower_toLower hc]

/-- The humps of a pascal form are the glued words of the name. -/
theorem humps_pascalChars (name : List Char) :
    humps (pascalChars name) = glued ((wordsOfChars name).map lowered) :=
  humps_flatMap_capitalized (areWords name)

theorem humps_camelChars (name : List Char) :
    humps (camelChars name) = glued ((wordsOfChars name).map lowered) := by
  rw [← humps_pascalChars, camelChars]
  cases hpascal : pascalChars name with
  | nil => rfl
  | cons c rest =>
      have hc : isWordChar c = true := isWordChar_pascalChars (hpascal ▸ List.mem_cons_self)
      exact humps_toLower hc rest

/-! ## Names that collide -/

/-- Names with the same glued words have one pascal form. -/
theorem pascal_eq_of_glued (h : glued (lowerWords name) = glued (lowerWords other)) :
    pascal name = pascal other := by
  have hpascal (name : String) :
      pascal name = String.ofList ((glued (lowerWords name)).flatMap capitalized) := by
    have hne : ∀ word ∈ lowerWords name, word ≠ [] := by
      rw [lowerWords, List.forall_mem_map]
      intro word hword
      simpa [lowered] using ne_nil_of_mem_wordsOfChars hword
    rw [flatMap_capitalized_glued hne, flatMap_lowerWords fun _ => capitalized_lowered]
    rfl
  rw [hpascal, hpascal, h]

/-- Names with one camel form have the same glued words. -/
theorem glued_eq_of_camel (h : camel name = camel other) :
    glued (lowerWords name) = glued (lowerWords other) := by
  have hchars : camelChars name.toList = camelChars other.toList := String.ofList_injective h
  rw [lowerWords, lowerWords, ← humps_camelChars, ← humps_camelChars, hchars]

/-- Two names have one pascal form exactly where they have the same glued words. -/
theorem pascal_eq_iff_glued :
    pascal name = pascal other ↔ glued (lowerWords name) = glued (lowerWords other) :=
  ⟨fun h => glued_eq_of_camel (camel_eq_of_pascal h), pascal_eq_of_glued⟩

/-- **Names collide in Pascal and in camel case just where their glued words are the same.**
And these are the names that are in conflict as declarations in Rust, TypeScript and Ruby:
in a scope in which the one was granted its identifier, the other is refused because of it. -/
theorem collision_iff (name other : String) :
    (pascal name = pascal other ↔ camel name = camel other) ∧
      (camel name = camel other ↔ glued (lowerWords name) = glued (lowerWords other)) ∧
      ∀ (s s' : Scope) (identifier : String), s.language ≠ .go → s.role = .declaration →
        s.claim name = .ok (identifier, s') →
          (s'.claim other = .error (.conflict s'.label name other identifier) ↔
            name ≠ other ∧ glued (lowerWords name) = glued (lowerWords other)) := by
  have hcamel : pascal name = pascal other ↔ camel name = camel other :=
    ⟨camel_eq_of_pascal, fun h => pascal_eq_of_glued (glued_eq_of_camel h)⟩
  refine ⟨hcamel, hcamel.symm.trans pascal_eq_iff_glued, ?_⟩
  intro s s' identifier hgo hrole hclaim
  obtain ⟨hext, hidentifier, howner⟩ := Scope.owns_of_claim hclaim
  have hlanguage : s'.language ≠ .go := hext.language ▸ hgo
  have hdeclaration : s'.role = .declaration := hext.role.trans hrole
  rw [Language.identifier_eq_ok_iff, hdeclaration, Language.casing_declaration hlanguage]
    at hidentifier
  obtain ⟨rfl, hne⟩ := hidentifier
  rw [← pascal_eq_iff_glued, Scope.claim_eq_error_iff]
  simp only [Language.identifier_eq_ok_iff, Language.identifier_eq_error_iff, hdeclaration,
    Language.casing_declaration hlanguage]
  grind

/-- A word that begins with a digit is not told from the end of the word before it. -/
theorem code_collision_iff :
    (Scope.empty "type declarations" .ruby .declaration).language ≠ .go ∧
      (Scope.empty "type declarations" .ruby .declaration).role = .declaration ∧
      (Scope.empty "type declarations" .ruby .declaration).claim "code_2fa" =
        .ok ("Code2fa", ⟨"type declarations", .ruby, .declaration, [("Code2fa", "code_2fa")]⟩) ∧
      (⟨"type declarations", .ruby, .declaration, [("Code2fa", "code_2fa")]⟩ : Scope).claim
          "code2fa" =
        .error (.conflict "type declarations" "code_2fa" "code2fa" "Code2fa") := by
  have hlanguage : (Scope.empty "type declarations" .ruby .declaration).language ≠ .go := by decide
  have hrole : (Scope.empty "type declarations" .ruby .declaration).role = .declaration := rfl
  have hclaim : (Scope.empty "type declarations" .ruby .declaration).claim "code_2fa" =
      .ok ("Code2fa", ⟨"type declarations", .ruby, .declaration, [("Code2fa", "code_2fa")]⟩) := rfl
  have hcollision := (collision_iff "code_2fa" "code2fa").2.2 _ _ _ hlanguage hrole hclaim
  exact ⟨hlanguage, hrole, hclaim, hcollision.2 ⟨by decide, by decide⟩⟩

end RpcBindings.Name
