import RpcBindings.Proofs.Name.Spelling

/-!
# RpcBindings.Proofs.Name.Partition

Where a name is cut.  The words of a name are told in two ways:

1. by cutting: first at the separators, and then each run of letters and digits at every
   position behind which a word begins (`wordsOfChars_eq_pieces`);
2. by neighbours: of two letters or digits that follow each other in a name, it is said when
   they are in different words (`wordOf_ne_iff`).

Nothing but the separators is lost, and a word shows by its form alone that it needs no
further cut (`isShaped_of_mem_wordsOfChars`).
-/

namespace RpcBindings.Name

variable {c d left right : Char} {word name before between after : List Char}
  {parts : List (List Char)} {k : Nat}

/-! ## Cutting runs -/

/-- Whether a word begins behind a position of a run of letters and digits. -/
def isCutBehind (run : List Char) (position : Nat) : Bool :=
  match run.drop position with
  | left :: right :: after => breaksBetween left right after.head?
  | _ => false

/-- The positions of a run behind which a word begins. -/
def cuts (run : List Char) : List Nat :=
  (List.range run.length).filter (isCutBehind run)

/-- What stands in a run from a start on, cut behind the given positions. -/
def slices (run : List Char) (start : Nat) : List Nat → List (List Char)
  | [] => [run.drop start]
  | position :: rest => (run.take (position + 1)).drop start :: slices run (position + 1) rest

/-- What a run is cut into. -/
def pieces (run : List Char) : List (List Char) :=
  (slices run 0 (cuts run)).filter (!·.isEmpty)

/-- The cuts of a run are those of its rest, moved on by one, and perhaps one in front of them. -/
theorem cuts_cons (c : Char) (run : List Char) :
    cuts (c :: run) =
      if isCutBehind (c :: run) 0 then 0 :: (cuts run).map Nat.succ
      else (cuts run).map Nat.succ := by
  have hsucc : isCutBehind (c :: run) ∘ Nat.succ = isCutBehind run := rfl
  rw [cuts, List.length_cons, List.range_succ_eq_map, List.filter_cons, List.filter_map, hsucc]
  rfl

/-- Slices behind the first character are slices of the rest. -/
theorem slices_cons_succ (c : Char) (run : List Char) (start : Nat) (positions : List Nat) :
    slices (c :: run) (start + 1) (positions.map Nat.succ) = slices run start positions := by
  induction positions generalizing start with
  | nil => rfl
  | cons position rest ih => exact congrArg _ (ih (position + 1))

/-- A first character that is not cut off is in the first slice. -/
theorem slices_cons_zero (c : Char) (run : List Char) (positions : List Nat) :
    slices (c :: run) 0 (positions.map Nat.succ) = extendFirst c (slices run 0 positions) := by
  cases positions with
  | nil => rfl
  | cons position rest => exact congrArg _ (slices_cons_succ c run (position + 1) rest)

/-- The slices between the cuts of a run are its words. -/
theorem slices_eq_wordsOfChars {run : List Char} (hne : run ≠ [])
    (hrun : ∀ c ∈ run, isWordChar c = true) : slices run 0 (cuts run) = wordsOfChars run := by
  induction run with
  | nil => contradiction
  | cons c rest ih =>
      rw [List.forall_mem_cons] at hrun
      cases rest with
      | nil => simp [cuts, slices, isCutBehind, wordsOfChars, continues, hrun.1]
      | cons d more =>
          have hcut : continues c (d :: more) = !isCutBehind (c :: d :: more) 0 := by
            simp [continues, isCutBehind, hrun.2 d List.mem_cons_self]
          rw [cuts_cons, wordsOfChars, hcut, hrun.1, ← ih (List.cons_ne_nil d more) hrun.2]
          cases isCutBehind (c :: d :: more) 0 with
          | false => exact slices_cons_zero c (d :: more) _
          | true => exact congrArg _ (slices_cons_succ c (d :: more) 0 _)

/-- The pieces of a run are its words. -/
theorem pieces_eq_wordsOfChars {run : List Char} (hrun : ∀ c ∈ run, isWordChar c = true) :
    pieces run = wordsOfChars run := by
  by_cases hne : run = []
  · subst hne
    rfl
  · rw [pieces, slices_eq_wordsOfChars hne hrun, List.filter_eq_self]
    intro word hword
    simpa using ne_nil_of_mem_wordsOfChars hword

/-- **The words of a name are the pieces of its runs.** -/
theorem wordsOfChars_eq_pieces (name : List Char) :
    wordsOfChars name = (name.splitOnP (!isWordChar ·)).flatMap pieces := by
  by_cases hsep : ∃ sep ∈ name, isWordChar sep = false
  · -- What stands on either side of a separator is cut by itself.
    obtain ⟨sep, hmem, hsep⟩ := hsep
    obtain ⟨front, back, hname⟩ := List.append_of_mem hmem
    have hfront : front.length < name.length := by simp [hname]
    have hback : back.length < name.length := by
      rw [hname, List.length_append, List.length_cons]
      omega
    rw [hname, wordsOfChars_append_sep hsep, List.splitOnP_append_cons _ _ (by simp [hsep]),
      List.flatMap_append, ← wordsOfChars_eq_pieces front, ← wordsOfChars_eq_pieces back]
  · have hrun : ∀ c ∈ name, isWordChar c = true := by simpa using hsep
    rw [List.splitOnP_eq_singleton (by simpa using hrun), List.flatMap_singleton,
      pieces_eq_wordsOfChars hrun]
termination_by name.length

/-! ## Neighbours -/

/-- The number of the word that the `k`-th of the letters of some words is in. -/
def wordOf : List (List Char) → Nat → Nat
  | [], _ => 0
  | word :: rest, k => if k < word.length then 0 else wordOf rest (k - word.length) + 1

/-- Extending the first part moves the word of every place on by one character. -/
theorem wordOf_extendFirst (h : parts ≠ []) :
    wordOf (extendFirst c parts) (k + 1) = wordOf parts k := by
  cases parts with
  | nil => contradiction
  | cons word rest => simp [extendFirst, wordOf]

/-- A new first part moves the word of every place on by one part. -/
theorem wordOf_single_cons (c : Char) (parts : List (List Char)) (k : Nat) :
    wordOf ([c] :: parts) (k + 1) = wordOf parts k + 1 := by
  simp [wordOf]

/-- A letter in front moves the others on, and stays apart from them or joins the first. -/
theorem wordOf_cons_ne_iff (hc : isWordChar c = true) :
    wordOf (wordsOfChars (c :: name)) (k + 1) ≠ wordOf (wordsOfChars (c :: name)) (k + 2) ↔
      wordOf (wordsOfChars name) k ≠ wordOf (wordsOfChars name) (k + 1) := by
  rw [wordsOfChars, hc]
  cases hcontinues : continues c name with
  | true =>
      simp only [Bool.not_true, Bool.false_eq_true, if_false, if_true,
        wordOf_extendFirst (wordsOfChars_ne_nil hcontinues)]
  | false =>
      simp only [Bool.not_true, Bool.false_eq_true, if_false, wordOf_single_cons, ne_eq,
        Nat.add_right_cancel_iff]

/-- The first two letters of a name are in one word if and only if the second goes on with the
word of the first. -/
theorem wordOf_zero_ne_one_iff (hc : isWordChar c = true) :
    wordOf (wordsOfChars (c :: name)) 0 ≠ wordOf (wordsOfChars (c :: name)) 1 ↔
      continues c name = false := by
  rw [wordsOfChars, hc]
  cases hcontinues : continues c name with
  | true =>
      cases hwords : wordsOfChars name with
      | nil => exact absurd hwords (wordsOfChars_ne_nil hcontinues)
      | cons word rest =>
          have hlength : 0 < word.length :=
            List.length_pos_iff.2 (ne_nil_of_mem_wordsOfChars (hwords ▸ List.mem_cons_self))
          simp [extendFirst, wordOf, hlength]
  | false => simp [wordOf]

/-- **Where words end.**  Two letters or digits that follow each other in a name are in
different words if and only if something else stands between them, or a word begins at the
second. -/
theorem wordOf_ne_iff (hleft : isWordChar left = true) (hright : isWordChar right = true)
    (hbetween : ∀ c ∈ between, isWordChar c = false) :
    wordOf (wordsOfChars (before ++ left :: (between ++ right :: after)))
          (before.countP isWordChar) ≠
        wordOf (wordsOfChars (before ++ left :: (between ++ right :: after)))
          (before.countP isWordChar + 1) ↔
      between ≠ [] ∨ breaksBetween left right after.head? = true := by
  induction before with
  | nil =>
      rw [List.countP_nil, List.nil_append, wordOf_zero_ne_one_iff hleft]
      cases between with
      | nil => simp [continues, hright]
      | cons sep rest =>
          rw [List.forall_mem_cons] at hbetween
          simp [continues, hbetween.1]
  | cons c rest ih =>
      rw [← ih, List.cons_append]
      cases hc : isWordChar c with
      | true => rw [List.countP_cons_of_pos hc, wordOf_cons_ne_iff hc]
      | false => rw [List.countP_cons_of_neg (by simp [hc]), wordsOfChars, hc]; rfl

/-! ## The form of a word -/

/-- A word has one capital at most, or several that no small letter follows at once; behind them
it has small letters and digits. -/
def IsShaped (word : List Char) : Prop :=
  ∃ capitals small, word = capitals ++ small ∧ (∀ c ∈ capitals, c.isUpper = true) ∧
    (∀ c ∈ small, c.isLower = true ∨ c.isDigit = true) ∧
      (capitals.length ≤ 1 ∨ ∀ c ∈ small.head?, c.isDigit = true)

/-- A single character of a word is a word of its own. -/
theorem isShaped_singleton (hc : isWordChar c = true) : IsShaped [c] := by
  obtain hupper | hsmall := isWordChar_iff.1 hc
  · exact ⟨[c], [], rfl, by simpa using hupper, by simp, .inl le_rfl⟩
  · exact ⟨[], [c], rfl, by simp, by simpa using hsmall, .inl (Nat.zero_le 1)⟩

/-- A word is still one with a letter in front, if none begins behind that letter. -/
theorem IsShaped.cons (hc : isWordChar c = true) (h : IsShaped (d :: word))
    (hbreak : breaksBetween c d word.head? = false) : IsShaped (c :: d :: word) := by
  obtain ⟨capitals, small, heq, hcapitals, hsmall, hform⟩ := h
  cases capitals with
  | nil =>
      obtain rfl : d :: word = small := heq
      obtain hupper | hlow := isWordChar_iff.1 hc
      · exact ⟨[c], d :: word, rfl, by simpa using hupper, hsmall, .inl le_rfl⟩
      · exact ⟨[], c :: d :: word, rfl, by simp, List.forall_mem_cons.2 ⟨hlow, hsmall⟩,
          .inl (Nat.zero_le 1)⟩
  | cons first rest =>
      obtain ⟨rfl, rfl⟩ := List.cons.inj heq
      have hd : d.isUpper = true := hcapitals d List.mem_cons_self
      have hupper : c.isUpper = true := by
        rw [isWordChar_iff] at hc
        simp only [breaksBetween, hd, Bool.and_true, Bool.or_eq_false_iff] at hbreak
        simpa [hbreak.1.1, hbreak.1.2] using hc
      refine ⟨c :: d :: rest, small, rfl, List.forall_mem_cons.2 ⟨hupper, hcapitals⟩, hsmall,
        .inr fun e he => ?_⟩
      cases rest with
      | nil =>
          -- The capital that was the only one now is the last of two.
          have hnext : e.isLower = false := by
            have hhead : small.head? = some e := he
            have hnext := (Bool.or_eq_false_iff.1 hbreak).2
            simpa [hupper, hd, hhead] using hnext
          simpa [hnext] using hsmall e (List.mem_of_mem_head? he)
      | cons second more => exact hform.resolve_left (by simp) e he

/-- The first word of a name that begins with a letter begins the name. -/
theorem exists_wordsOfChars_cons (hc : isWordChar c = true) (name : List Char) :
    ∃ word rest, wordsOfChars (c :: name) = (c :: word) :: rest ∧ word <+: name := by
  induction name generalizing c with
  | nil => exact ⟨[], [], by simp [wordsOfChars, continues, hc], List.nil_prefix⟩
  | cons d more ih =>
      rw [wordsOfChars, hc]
      cases hcontinues : continues c (d :: more) with
      | false => exact ⟨[], _, rfl, List.nil_prefix⟩
      | true =>
          obtain ⟨word, rest, hwords, hbegins⟩ := ih (isWordChar_of_continues hcontinues)
          exact ⟨d :: word, rest, by rw [hwords]; rfl, List.cons_prefix_cons.2 ⟨rfl, hbegins⟩⟩

/-- Where less is seen of what follows, no more words begin. -/
theorem breaksBetween_of_isPrefix (h : breaksBetween c d name.head? = false)
    (hbegins : word <+: name) : breaksBetween c d word.head? = false := by
  obtain ⟨more, rfl⟩ := hbegins
  cases word with
  | nil => simpa [breaksBetween] using (Bool.or_eq_false_iff.1 h).1
  | cons e tail => exact h

/-- **Words have the form of words.** -/
theorem isShaped_of_mem_wordsOfChars (h : word ∈ wordsOfChars name) : IsShaped word := by
  induction name generalizing word with
  | nil => contradiction
  | cons c rest ih =>
      rw [wordsOfChars] at h
      cases hc : isWordChar c with
      | false => exact ih (by simpa [hc] using h)
      | true =>
          cases hcontinues : continues c rest with
          | false =>
              obtain rfl | h := List.mem_cons.1 (by simpa [hc, hcontinues] using h)
              · exact isShaped_singleton hc
              · exact ih h
          | true =>
              cases rest with
              | nil => contradiction
              | cons d more =>
                  rw [hc, hcontinues] at h
                  rw [continues, Bool.and_eq_true, Bool.not_eq_true'] at hcontinues
                  obtain ⟨first, others, hwords, hbegins⟩ :=
                    exists_wordsOfChars_cons hcontinues.1 more
                  rw [hwords] at h ih
                  obtain rfl | h := List.mem_cons.1 h
                  · exact (ih List.mem_cons_self).cons hc
                      (breaksBetween_of_isPrefix hcontinues.2 hbegins)
                  · exact ih (List.mem_cons_of_mem _ h)

/-! ## The words of a text -/

/-- The words of a name are the words of its characters. -/
theorem toList_words (name : String) :
    (words name).map String.toList = wordsOfChars name.toList := by
  simp [words, Function.comp_def]

/-- **Splitting a name is an exact partition of its letters and digits.**  Its words are the
pieces of its runs, none is empty, and together they are the name without its separators; two
letters or digits that follow each other are in different words just where something else
stands between them, at a capital behind a small letter or digit, and at a capital between
another one and a small letter; and each word has the form of a word. -/
theorem words_partition (name : String) :
    words name =
        ((name.toList.splitOnP (!isWordChar ·)).flatMap pieces).map String.ofList ∧
      (∀ word ∈ words name, word ≠ "") ∧
      String.join (words name) = String.ofList (name.toList.filter isWordChar) ∧
      (∀ before left between right after,
        name.toList = before ++ left :: (between ++ right :: after) →
        isWordChar left = true → isWordChar right = true →
        (∀ c ∈ between, isWordChar c = false) →
          (wordOf ((words name).map String.toList) (before.countP isWordChar) ≠
              wordOf ((words name).map String.toList) (before.countP isWordChar + 1) ↔
            between ≠ [] ∨ (left.isLower ∨ left.isDigit) ∧ right.isUpper ∨
              left.isUpper ∧ right.isUpper ∧ ∃ next ∈ after.head?, next.isLower)) ∧
      ∀ word ∈ words name, IsShaped word.toList := by
  refine ⟨?_, ?_, ?_, ?_, ?_⟩
  · rw [words, wordsOfChars_eq_pieces]
  · rw [words, List.forall_mem_map]
    intro word hword
    rw [ne_eq, String.ofList_eq_empty_iff]
    exact ne_nil_of_mem_wordsOfChars hword
  · apply String.toList_injective
    rw [String.toList_join, String.toList_ofList, List.flatMap_def, toList_words,
      flatten_wordsOfChars]
  · intro before left between right after hname hleft hright hbetween
    rw [toList_words, hname, wordOf_ne_iff hleft hright hbetween]
    simp [breaksBetween, and_assoc, Option.any_eq_true]
  · rw [words, List.forall_mem_map]
    intro word hword
    rw [String.toList_ofList]
    exact isShaped_of_mem_wordsOfChars hword

/-- The last capital of a run begins a word where a small letter follows it. -/
theorem server_words_partition :
    "HTTPServer".toList = ['H', 'T', 'T'] ++ 'P' :: ([] ++ 'S' :: "erver".toList) ∧
      isWordChar 'P' = true ∧ isWordChar 'S' = true ∧ (∀ c ∈ [], isWordChar c = false) ∧
      wordOf ((words "HTTPServer").map String.toList) 3 ≠
        wordOf ((words "HTTPServer").map String.toList) 4 := by
  have hname : "HTTPServer".toList = ['H', 'T', 'T'] ++ 'P' :: ([] ++ 'S' :: "erver".toList) := rfl
  have hleft : isWordChar 'P' = true := by decide
  have hright : isWordChar 'S' = true := by decide
  have hbetween : ∀ c ∈ ([] : List Char), isWordChar c = false := by simp
  have hcut := (words_partition "HTTPServer").2.2.2.1 ['H', 'T', 'T'] 'P' [] 'S' "erver".toList
    hname hleft hright hbetween
  refine ⟨hname, hleft, hright, hbetween, hcut.2 (.inr (.inr ?_))⟩
  exact ⟨by decide, by decide, 'e', rfl, by decide⟩

example : words "HTTPServer2Go-usérIDs" = ["HTTP", "Server2", "Go", "us", "r", "I", "Ds"] := by
  rfl

end RpcBindings.Name
