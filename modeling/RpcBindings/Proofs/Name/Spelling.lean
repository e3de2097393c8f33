import RpcBindings.Proofs.Name.Casing

/-!
# RpcBindings.Proofs.Name.Spelling

The names that one identifier stands for.  Pascal case sees no more of a name than its
words in lower case.  Where it writes nothing but letters it loses none of that: every
word has its capital, so the words can be told from the identifier, and two names have
the same one if and only if they have the same words (`pascal_eq_iff`).
-/

namespace RpcBindings.Name

variable {c : Char} {name other text : String}

/-- The words of a name in lower case. -/
def lowerWords (name : String) : List (List Char) :=
  (wordsOfChars name.toList).map lowered

/-! ## Letters in both cases -/

theorem not_isLower_toUpper (h : isWordChar c = true) : c.toUpper.isLower = false :=
  of_isWordChar (P := fun c => c.toUpper.isLower = false) (by decide) h

theorem isLower_toLower (h : isWordChar c = true) (halpha : c.toLower.isAlpha = true) :
    c.toLower.isLower = true := by
  revert halpha
  exact of_isWordChar (P := fun c => c.toLower.isAlpha = true → c.toLower.isLower = true)
    (by decide) h

theorem toLower_toUpper (h : isWordChar c = true) : c.toUpper.toLower = c.toLower :=
  of_isWordChar (P := fun c => c.toUpper.toLower = c.toLower) (by decide) h

theorem toUpper_toLower (h : isWordChar c = true) : c.toLower.toUpper = c.toUpper :=
  of_isWordChar (P := fun c => c.toLower.toUpper = c.toUpper) (by decide) h

theorem toLower_toLower (h : isWordChar c = true) : c.toLower.toLower = c.toLower :=
  of_isWordChar (P := fun c => c.toLower.toLower = c.toLower) (by decide) h

/-- Capitals are set whatever case a word is in. -/
theorem capitalized_lowered {word : List Char} (h : ∀ c ∈ word, isWordChar c = true) :
    capitalized (lowered word) = capitalized word := by
  cases word with
  | nil => rfl
  | cons c rest =>
      rw [List.forall_mem_cons] at h
      rw [lowered, List.map_cons, capitalized, capitalized, toUpper_toLower h.1, List.map_map]
      exact congrArg _ (List.map_congr_left fun c hc => toLower_toLower (h.2 c hc))

/-! ## Words that are told apart -/

/-- Where small letters end is seen. -/
theorem append_inj_of_lower {low low' more more' : List Char}
    (hlow : ∀ c ∈ low, c.isLower = true) (hlow' : ∀ c ∈ low', c.isLower = true)
    (hmore : ∀ c ∈ more.head?, c.isLower = false) (hmore' : ∀ c ∈ more'.head?, c.isLower = false)
    (h : low ++ more = low' ++ more') : low = low' ∧ more = more' := by
  have htake {low more : List Char} (hlow : ∀ c ∈ low, c.isLower = true)
      (hmore : ∀ c ∈ more.head?, c.isLower = false) :
      (low ++ more).takeWhile Char.isLower = low := by
    rw [List.takeWhile_append_of_pos hlow]
    cases more with
    | nil => exact List.append_nil low
    | cons c rest => rw [List.takeWhile_cons, hmore c rfl]; exact List.append_nil low
  have hfront : low = low' := by rw [← htake hlow hmore, h, htake hlow' hmore']
  subst hfront
  exact ⟨rfl, List.append_cancel_left h⟩

/-- Words of letters or digits. -/
def AreWords (words : List (List Char)) : Prop :=
  ∀ word ∈ words, word ≠ [] ∧ ∀ c ∈ word, isWordChar c = true

/-- The words of a name are words. -/
theorem areWords (name : List Char) : AreWords (wordsOfChars name) :=
  fun _ hword => ⟨ne_nil_of_mem_wordsOfChars hword, fun _ => isWordChar_of_mem_wordsOfChars hword⟩

/-- No capitalized word begins with a small letter. -/
theorem AreWords.head {words : List (List Char)} (h : AreWords words) :
    ∀ c ∈ (words.flatMap capitalized).head?, c.isLower = false := by
  cases words with
  | nil => simp
  | cons word rest =>
      obtain ⟨hne, hchars⟩ := h word List.mem_cons_self
      cases word with
      | nil => exact absurd rfl hne
      | cons first tail =>
          intro c hc
          obtain rfl : first.toUpper = c := Option.some.inj hc
          exact not_isLower_toUpper (hchars first List.mem_cons_self)

/-- Words of letters are read back from their capitalized forms in one text, up to case. -/
theorem lowered_eq_of_capitalized {words words' : List (List Char)} (h : AreWords words)
    (h' : AreWords words') (hletters : ∀ c ∈ words.flatMap capitalized, c.isAlpha = true)
    (heq : words.flatMap capitalized = words'.flatMap capitalized) :
    words.map lowered = words'.map lowered := by
  induction words generalizing words' with
  | nil =>
      cases words' with
      | nil => rfl
      | cons word rest =>
          obtain ⟨hne, -⟩ := h' word List.mem_cons_self
          cases word with
          | nil => exact absurd rfl hne
          | cons c tail => exact absurd heq (List.cons_ne_nil _ _).symm
  | cons word rest ih =>
      obtain ⟨⟨hne, hchars⟩, hrest⟩ := List.forall_mem_cons.1 h
      cases word with
      | nil => exact absurd rfl hne
      | cons c tail =>
          cases words' with
          | nil => exact absurd heq (List.cons_ne_nil _ _)
          | cons word' rest' =>
              obtain ⟨⟨hne', hchars'⟩, hrest'⟩ := List.forall_mem_cons.1 h'
              cases word' with
              | nil => exact absurd rfl hne'
              | cons c' tail' =>
                  have hletters' := heq ▸ hletters
                  simp only [List.flatMap_cons, capitalized, List.cons_append, List.cons.injEq,
                    List.forall_mem_cons, List.forall_mem_append]
                    at heq hletters hletters' hchars hchars'
                  have hlow : ∀ d ∈ tail.map Char.toLower, d.isLower = true :=
                    List.forall_mem_map.2 fun d hd => isLower_toLower (hchars.2 d hd)
                      (hletters.2.1 _ (List.mem_map_of_mem hd))
                  have hlow' : ∀ d ∈ tail'.map Char.toLower, d.isLower = true :=
                    List.forall_mem_map.2 fun d hd => isLower_toLower (hchars'.2 d hd)
                      (hletters'.2.1 _ (List.mem_map_of_mem hd))
                  obtain ⟨htail, hmore⟩ := append_inj_of_lower hlow hlow'
                    (AreWords.head hrest) (AreWords.head hrest') heq.2
                  have hfirst : c.toLower = c'.toLower := by
                    rw [← toLower_toUpper hchars.1, heq.1, toLower_toUpper hchars'.1]
                  rw [List.map_cons, List.map_cons, ih hrest hrest' hletters.2.2 hmore, lowered,
                    lowered, List.map_cons, List.map_cons, hfirst, htail]

/-! ## Pascal case -/

/-- A casing that is the same for a word in lower case sees the words in lower case only. -/
theorem flatMap_lowerWords {write : List Char → List Char}
    (h : ∀ word, (∀ c ∈ word, isWordChar c = true) → write (lowered word) = write word)
    (name : String) :
    (lowerWords name).flatMap write = (wordsOfChars name.toList).flatMap write := by
  rw [lowerWords, List.flatMap_map]
  exact List.flatMap_congr fun word hword => h word ((areWords _) word hword).2

/-- Names with the same words have one pascal form. -/
theorem pascal_eq_of_lowerWords (h : lowerWords name = lowerWords other) :
    pascal name = pascal other := by
  rw [pascal, pascal, pascalChars, pascalChars,
    ← flatMap_lowerWords (fun _ => capitalized_lowered) name, h,
    flatMap_lowerWords fun _ => capitalized_lowered]

/-- **Names have one identifier of letters if and only if they have the same words.** -/
theorem pascal_eq_iff (hletters : ∀ c ∈ (pascal other).toList, c.isAlpha = true) :
    pascal name = pascal other ↔ lowerWords name = lowerWords other := by
  refine ⟨fun h => ?_, pascal_eq_of_lowerWords⟩
  rw [← h, pascal, String.toList_ofList] at hletters
  exact lowered_eq_of_capitalized (areWords _) (areWords _) hletters (String.ofList_injective h)

/-- Whether a text is no identifier of any name, as it begins with a small letter or holds
something besides letters and digits. -/
def isForeign (text : String) : Bool :=
  text.toList.any (!isWordChar ·) || text.toList.head?.any Char.isLower

/-- No pascal form is a foreign text. -/
theorem pascal_ne_of_isForeign (h : isForeign text = true) (name : String) :
    pascal name ≠ text := by
  rintro rfl
  rw [isForeign, pascal, String.toList_ofList, Bool.or_eq_true] at h
  obtain h | h := h
  · obtain ⟨c, hc, hforeign⟩ := List.any_eq_true.1 h
    rw [isWordChar_pascalChars hc] at hforeign
    contradiction
  · obtain ⟨c, hc, hlower⟩ := (Option.any_eq_true _ _).1 h
    rw [(areWords name.toList).head c hc] at hlower
    contradiction

/-- Whether a text is an identifier of letters, its own one, or none. -/
def isTold (text : String) : Bool :=
  (pascal text == text && text.toList.all Char.isAlpha) || isForeign text

/-- The names of which such a text is the identifier. -/
theorem pascal_eq_iff_of_isTold (h : isTold text = true) :
    pascal name = text ↔ pascal text = text ∧ lowerWords name = lowerWords text := by
  rw [isTold, Bool.or_eq_true, Bool.and_eq_true, beq_iff_eq, List.all_eq_true] at h
  obtain ⟨hself, hletters⟩ | hforeign := h
  · rw [← hself] at hletters
    rw [and_iff_right hself, ← pascal_eq_iff hletters, hself]
  · have hne := pascal_ne_of_isForeign hforeign
    simp [hne]

/-! ## Words behind a separator -/

/-- A word is continued by a character of words only. -/
theorem isWordChar_of_continues {d : Char} {cs : List Char} (h : continues c (d :: cs) = true) :
    isWordChar d = true := by
  rw [continues, Bool.and_eq_true] at h
  exact h.1

/-- What continues a word has a word. -/
theorem wordsOfChars_ne_nil {cs : List Char} (h : continues c cs = true) :
    wordsOfChars cs ≠ [] := by
  cases cs with
  | nil => contradiction
  | cons d rest =>
      rw [wordsOfChars, isWordChar_of_continues h]
      split
      · contradiction
      · split
        · cases wordsOfChars rest <;> simp [extendFirst]
        · simp

/-- Nothing behind a separator continues a word. -/
theorem continues_append_sep {sep : Char} (h : isWordChar sep = false) (c : Char)
    (cs more : List Char) : continues c (cs ++ sep :: more) = continues c cs := by
  cases cs with
  | nil => simp [continues, h]
  | cons d rest =>
      cases rest with
      | nil =>
          have hlower : sep.isLower = false := by
            rw [Bool.eq_false_iff, ne_eq, isWordChar_iff] at h
            simpa using (not_or.1 (not_or.1 h).2).1
          simp [continues, breaksBetween, hlower]
      | cons e rest => rfl

/-- A separator keeps the words on its two sides apart. -/
theorem wordsOfChars_append_sep {sep : Char} (h : isWordChar sep = false) (cs more : List Char) :
    wordsOfChars (cs ++ sep :: more) = wordsOfChars cs ++ wordsOfChars more := by
  induction cs with
  | nil => simp [wordsOfChars, h]
  | cons c rest ih =>
      rw [List.cons_append, wordsOfChars, wordsOfChars, continues_append_sep h, ih]
      split
      · rfl
      · split
        · next hcontinues =>
          cases hwords : wordsOfChars rest with
          | nil => exact absurd hwords (wordsOfChars_ne_nil hcontinues)
          | cons word words => rfl
        · rfl

end RpcBindings.Name
