import RpcBindings.Proofs.Name.Canonical

/-!
# RpcBindings.Proofs.Name.Keyword

Members in Rust.  Snake case has no `#` and does not end with an underscore, so the mark of
raw identifiers and the underscore behind a path keyword can be taken off again
(`unescapeRustKeyword`): no two names become one member by being escaped, and no member is a
keyword.
-/

namespace RpcBindings.Name

variable {c : Char} {sep : List Char} {parts : List (List Char)} {name : String}

/-! ## The ends of snake case -/

/-- Parts that are not empty make a text that is not. -/
theorem intercalate_ne_nil (hne : parts ≠ []) (h : ∀ part ∈ parts, part ≠ []) :
    sep.intercalate parts ≠ [] := by
  cases parts with
  | nil => contradiction
  | cons part rest =>
      have hpart := h part List.mem_cons_self
      by_cases hrest : rest = []
      · rwa [hrest, List.intercalate_singleton]
      · rw [List.intercalate_cons_of_ne_nil hrest, List.append_assoc]
        exact List.append_ne_nil_of_left_ne_nil hpart _

/-- Joined parts end with the end of a part. -/
theorem exists_mem_of_getLast?_intercalate (h : ∀ part ∈ parts, part ≠ [])
    (hc : c ∈ (sep.intercalate parts).getLast?) : ∃ part ∈ parts, c ∈ part := by
  induction parts with
  | nil => simp [List.intercalate] at hc
  | cons part rest ih =>
      rw [List.forall_mem_cons] at h
      by_cases hrest : rest = []
      · rw [hrest, List.intercalate_singleton] at hc
        exact ⟨part, List.mem_cons_self, List.mem_of_mem_getLast? hc⟩
      · rw [List.intercalate_cons_of_ne_nil hrest,
          List.getLast?_append_of_ne_nil _ (intercalate_ne_nil hrest h.2)] at hc
        obtain ⟨other, hother, hc⟩ := ih h.2 hc
        exact ⟨other, List.mem_cons_of_mem _ hother, hc⟩

/-- The snake form ends in a character of a word. -/
theorem isWordChar_getLast?_snakeChars {name : List Char} (hc : c ∈ (snakeChars name).getLast?) :
    isWordChar c = true := by
  have hwords : AreWords ((wordsOfChars name).map lowered) :=
    List.forall_mem_map.2 fun word hword =>
      ⟨by simpa [lowered] using (areWords name word hword).1,
        isWordChar_lowered (areWords name word hword).2⟩
  obtain ⟨word, hword, hc⟩ :=
    exists_mem_of_getLast?_intercalate (fun word hword => (hwords word hword).1) hc
  exact (hwords word hword).2 c hc

/-! ## Escaped names -/

/-- The name that was escaped: without the mark of raw identifiers, or else without an
underscore at the end. -/
def unescapeRustKeyword (identifier : String) : String :=
  match identifier.toList with
  | 'r' :: '#' :: rest => String.ofList rest
  | cs => if cs.getLast? = some '_' then String.ofList cs.dropLast else identifier

/-- A raw identifier is read as what stands behind its mark. -/
theorem unescapeRustKeyword_raw (name : String) : unescapeRustKeyword ("r#" ++ name) = name := by
  rw [unescapeRustKeyword, String.toList_append]
  exact String.ofList_toList

/-- Without the mark of raw identifiers only the end counts. -/
theorem unescapeRustKeyword_of_notMem (h : '#' ∉ name.toList) :
    unescapeRustKeyword name =
      if name.toList.getLast? = some '_' then String.ofList name.toList.dropLast else name := by
  unfold unescapeRustKeyword
  split
  · next hraw => simp [hraw] at h
  · rfl

/-- **What is escaped can be told from the member**, unless it looks like one itself. -/
theorem unescapeRustKeyword_escape (hmark : '#' ∉ name.toList)
    (hlast : name.toList.getLast? ≠ some '_') :
    unescapeRustKeyword (escapeRustKeyword name) = name := by
  unfold escapeRustKeyword
  split
  · have hnot : '#' ∉ (name ++ "_").toList := by simpa [String.toList_append] using hmark
    rw [unescapeRustKeyword_of_notMem hnot]
    simp [String.toList_append]
  · split
    · exact unescapeRustKeyword_raw name
    · rw [unescapeRustKeyword_of_notMem hmark, if_neg hlast]

/-- The snake form holds no mark of a raw identifier. -/
theorem notMem_snake (name : String) : '#' ∉ (snake name).toList := by
  rw [snake, String.toList_ofList]
  exact fun hc => absurd (isWordChar_snakeChars hc) (by decide)

/-- The snake form does not end in an underscore. -/
theorem getLast?_snake_ne (name : String) : (snake name).toList.getLast? ≠ some '_' := by
  rw [snake, String.toList_ofList]
  exact fun hc => absurd (isWordChar_getLast?_snakeChars hc) (by decide)

/-- The snake form is read back from the Rust member. -/
theorem unescapeRustKeyword_rustMember (name : String) :
    unescapeRustKeyword (rustMember name) = snake name :=
  unescapeRustKeyword_escape (notMem_snake name) (getLast?_snake_ne name)

/-! ## Keywords -/

/-- The words that no identifier of Rust can be.  `Self` is a path keyword with a capital,
and the underscore alone is no name. -/
def rustReserved : List String := rustKeywords ++ rustPathKeywords ++ ["Self", "_"]

/-- Snake case is not changed by another one, as the last two of these words would be. -/
theorem snake_mem_rustReserved_iff :
    snake name ∈ rustReserved ↔ snake name ∈ rustKeywords ∨ snake name ∈ rustPathKeywords := by
  have hothers : snake name ∉ ["Self", "_"] := by
    intro hmem
    have hchanged : ∀ word ∈ ["Self", "_"], snake word ≠ word := by decide
    exact hchanged _ hmem (snake_eq_iff.2 (lowerWords_snake name))
  simp only [rustReserved, List.mem_append, hothers, or_false]

/-- The three forms of a member. -/
theorem rustMember_cases (name : String) :
    (snake name ∉ rustReserved ∧ rustMember name = snake name) ∨
      (∃ keyword ∈ rustKeywords, keyword ∉ rustPathKeywords ∧ snake name = keyword ∧
        rustMember name = "r#" ++ keyword) ∨
      ∃ keyword ∈ rustPathKeywords, snake name = keyword ∧ rustMember name = keyword ++ "_" := by
  simp only [rustMember, escapeRustKeyword, List.contains_iff_mem]
  split
  · next hpath => exact .inr (.inr ⟨_, hpath, rfl, rfl⟩)
  · next hpath =>
    split
    · next hkeyword => exact .inr (.inl ⟨_, hkeyword, hpath, rfl, rfl⟩)
    · next hkeyword =>
      exact .inl ⟨fun h => (snake_mem_rustReserved_iff.1 h).elim hkeyword hpath, rfl⟩

/-- No Rust member is a reserved word. -/
theorem rustMember_notMem_rustReserved (name : String) : rustMember name ∉ rustReserved := by
  rcases rustMember_cases name with
    ⟨hplain, heq⟩ | ⟨keyword, -, -, -, heq⟩ | ⟨keyword, hkeyword, -, heq⟩
  · rwa [heq]
  · intro hmem
    have hmark : ∀ word ∈ rustReserved, '#' ∉ word.toList := by decide
    rw [heq] at hmem
    exact hmark _ hmem (by simp [String.toList_append])
  · have hlonger : ∀ keyword ∈ rustPathKeywords, keyword ++ "_" ∉ rustReserved := by decide
    rw [heq]
    exact hlonger keyword hkeyword

/-- **Members in Rust are no keywords, and escaping merges none of them.**  Two names are one
member if and only if they have one snake case; and a member is this snake case if it is no
keyword of any kind, a raw identifier if it is one, and has an underscore behind it if it is
a path keyword. -/
theorem rustMember_escapes (name other : String) :
    (rustMember name = rustMember other ↔ snake name = snake other) ∧
      rustMember name ∉ rustReserved ∧
      ((snake name ∉ rustReserved ∧ rustMember name = snake name) ∨
        (∃ keyword ∈ rustKeywords, keyword ∉ rustPathKeywords ∧ snake name = keyword ∧
          rustMember name = "r#" ++ keyword) ∨
        ∃ keyword ∈ rustPathKeywords, snake name = keyword ∧ rustMember name = keyword ++ "_") := by
  refine ⟨⟨fun h => ?_, fun h => by rw [rustMember, rustMember, h]⟩,
    rustMember_notMem_rustReserved name, rustMember_cases name⟩
  rw [← unescapeRustKeyword_rustMember name, h, unescapeRustKeyword_rustMember]

example : ["Self", "self_", "TYPE", "r#type", "try-it", "crate"].map rustMember =
    ["self_", "self_", "r#type", "r_type", "try_it", "crate_"] := by
  rfl

end RpcBindings.Name
