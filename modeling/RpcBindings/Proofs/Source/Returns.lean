import RpcBindings.Proofs.Source.Statements

/-!
# RpcBindings.Proofs.Source.Returns

The return statements in a source text, read off its lines: those that begin, behind
their indentation, with `return`.  A line is known to be none by its first letters, so
one walk over a text (`mark`) shows that it holds no return statement, whatever stands
further inside its lines.
-/

namespace RpcBindings

namespace Text

/-! ## Readers -/

/-- The beginning of a return statement. -/
def returnWord : List Char :=
  ['r', 'e', 't', 'u', 'r', 'n', ' ']

/-- The expression that a line returns, if it is a return statement. -/
def returned? (line : List Char) : Option (List Char) :=
  behind? returnWord line

/-- The expressions that a text returns, line by line. -/
def returnsOf (text : String) : List (List Char) :=
  statementsOf returnWord text

/-! ## Lines that return nothing -/

/-- What the walk has seen of a line. -/
inductive Mark where
  /-- Nothing but indentation. -/
  | start
  /-- The letter `r` at the beginning. -/
  | letter
  /-- A beginning that is no return statement. -/
  | inside
  /-- The letters `re` at the beginning of this line or of one before. -/
  | caught
deriving DecidableEq

def Mark.next : Mark → Char → Mark
  | .caught, _ => .caught
  | .letter, 'e' => .caught
  | _, '\n' => .start
  | .start, ' ' => .start
  | .start, '\t' => .start
  | .start, 'r' => .letter
  | _, _ => .inside

/-- What is seen of the last line of a text. -/
def mark (m : Mark) (cs : List Char) : Mark :=
  cs.foldl Mark.next m

/-- The state behind a text is the one that its second half leads to. -/
theorem mark_append (m : Mark) (cs more : List Char) :
    mark m (cs ++ more) = mark (mark m cs) more :=
  List.foldl_append

/-- A word that was caught stays caught. -/
@[simp] theorem mark_caught (cs : List Char) : mark .caught cs = .caught := by
  induction cs with
  | nil => rfl
  | cons c cs ih => exact ih

/-- A line that has begun goes on until the next line feed. -/
theorem mark_inside {cs : List Char} (h : '\n' ∉ cs) : mark .inside cs = .inside := by
  induction cs with
  | nil => rfl
  | cons c cs ih =>
      rw [List.mem_cons, not_or] at h
      have hnext : Mark.next .inside c = .inside := by
        unfold Mark.next
        split <;> simp_all
      rw [mark, List.foldl_cons, hnext]
      exact ih h.2

/-- What is known of the rest of a line by what was seen before. -/
def Mark.Excludes (rest : List Char) : Mark → Prop
  | .start => returned? rest = none
  | .letter => rest.head? ≠ some 'e'
  | .inside => True
  | .caught => False

theorem Mark.excludes_nil {m : Mark} (h : m ≠ .caught) : m.Excludes [] := by
  cases m with
  | start => rfl
  | letter => simp [Excludes]
  | inside => trivial
  | caught => exact h rfl

theorem Mark.next_feed {m : Mark} (h : m ≠ .caught) : m.next '\n' = .start := by
  cases m with
  | caught => contradiction
  | _ => rfl

/-- What is known behind a character is known before it. -/
theorem Mark.excludes_cons {m : Mark} {c : Char} {rest : List Char} (hfeed : c ≠ '\n')
    (h : (m.next c).Excludes rest) : m.Excludes (c :: rest) := by
  cases m with
  | inside => trivial
  | caught => exact h
  | letter =>
      rintro heq
      obtain rfl := Option.some.inj heq
      exact h
  | start =>
      by_cases hspace : c = ' ' ∨ c = '\t'
      · obtain rfl | rfl := hspace
        · exact h
        · exact h
      · have hindent : isIndent c = false := by simpa [isIndent] using hspace
        have hdrop : (c :: rest).dropWhile isIndent = c :: rest :=
          List.dropWhile_cons_of_neg (by simp [hindent])
        rw [Excludes, returned?, behind?, hdrop]
        by_cases hletter : c = 'r'
        · subst hletter
          cases rest with
          | nil => rfl
          | cons next rest =>
              have hnext : ('e' == next) = false := by
                rw [beq_eq_false_iff_ne]
                rintro rfl
                exact h rfl
              simp [after?, returnWord, hnext]
        · simp [after?, returnWord, Ne.symm hletter]

/-- Lines of a text in which nothing was caught are no return statements. -/
theorem excludes_of_mark {m : Mark} {cs : List Char} (h : mark m cs ≠ .caught) :
    ∃ first others, splitChars '\n' cs = first :: others ∧ m.Excludes first ∧
      others.filterMap returned? = [] := by
  induction cs generalizing m with
  | nil => exact ⟨[], [], rfl, Mark.excludes_nil h, rfl⟩
  | cons c cs ih =>
      have hm : m ≠ .caught := by
        rintro rfl
        exact h (mark_caught _)
      have h : mark (m.next c) cs ≠ .caught := h
      obtain ⟨first, others, hsplit, hfirst, hothers⟩ := ih h
      -- A line feed closes this line, and what follows is walked as a line of its own.
      by_cases hfeed : c = '\n'
      · subst hfeed
        rw [Mark.next_feed hm] at hfirst
        refine ⟨[], first :: others, by simp [splitChars, hsplit], Mark.excludes_nil hm, ?_⟩
        rw [List.filterMap_cons_none hfirst, hothers]
      · exact ⟨c :: first, others, by simp [splitChars, hsplit, hfeed],
          Mark.excludes_cons hfeed hfirst, hothers⟩

/-- Nothing is caught in the text. -/
def Quiet (text : String) : Prop :=
  mark .start text.toList ≠ .caught

instance (text : String) : Decidable (Quiet text) :=
  inferInstanceAs (Decidable (mark .start text.toList ≠ .caught))

/-- A quiet text returns nothing. -/
theorem returnsOf_of_quiet {text : String} (h : Quiet text) : returnsOf text = [] := by
  obtain ⟨first, others, hsplit, hfirst, hothers⟩ := excludes_of_mark h
  have hfirst : behind? returnWord first = none := hfirst
  rw [returnsOf, statementsOf, hsplit, List.filterMap_cons_none hfirst]
  exact hothers

/-! ## Texts that lead nowhere else -/

/-- Where nothing has begun that could be a return statement. -/
def Mark.calm : List Mark := [.start, .inside]

/-- Nothing is caught by one character. -/
theorem Mark.next_ne_caught {m : Mark} (hm : m ∈ calm) {c : Char} : m.next c ≠ .caught := by
  unfold Mark.next
  split <;> simp_all [calm]

/-- Where a text is read from a calm place, it ends in one. -/
def Steady (text : String) : Prop :=
  ∀ m ∈ Mark.calm, mark m text.toList ∈ Mark.calm

/-- Where a text is read from a calm place, it ends within a line. -/
def Settled (text : String) : Prop :=
  ∀ m ∈ Mark.calm, mark m text.toList = .inside

instance (text : String) : Decidable (Steady text) :=
  inferInstanceAs (Decidable (∀ m ∈ Mark.calm, mark m text.toList ∈ Mark.calm))

instance (text : String) : Decidable (Settled text) :=
  inferInstanceAs (Decidable (∀ m ∈ Mark.calm, mark m text.toList = .inside))

variable {text more : String}

/-- A settled text is steady. -/
theorem Settled.steady (h : Settled text) : Steady text := by
  intro m hm
  rw [h m hm]
  decide

/-- A steady text is quiet. -/
theorem Steady.quiet (h : Steady text) : Quiet text := by
  intro hcaught
  have hcalm := h .start (by decide)
  rw [hcaught] at hcalm
  exact absurd hcalm (by decide)

theorem Steady.append (h : Steady text) (hmore : Steady more) : Steady (text ++ more) := by
  intro m hm
  rw [String.toList_append, mark_append]
  exact hmore _ (h m hm)

/-- A steady text stays so between steady ones. -/
theorem Steady.enclosed {front back : String} (h : Steady text) (hfront : Steady front)
    (hback : Steady back) : Steady (front ++ text ++ back) :=
  (hfront.append h).append hback

/-- A settled text behind a steady one settles it. -/
theorem Steady.append_settled (h : Steady text) (hmore : Settled more) :
    Settled (text ++ more) := by
  intro m hm
  rw [String.toList_append, mark_append]
  exact hmore _ (h m hm)

/-- A line that has begun goes on, whatever it holds. -/
theorem Settled.append (h : Settled text) (hmore : '\n' ∉ more.toList) :
    Settled (text ++ more) := by
  intro m hm
  rw [String.toList_append, mark_append, h m hm, mark_inside hmore]

/-! ## Return statements -/

/-- A return statement on one line returns its expression. -/
theorem returnsOf_return {expression : String} (h : '\n' ∉ expression.toList) :
    returnsOf ("return " ++ expression) = [expression.toList] :=
  @statementsOf_word expression "return " (by decide) (by decide) h

end Text

/-! ## Drafts -/

namespace Draft

/-- The expressions that the lines of a draft return. -/
def returns (draft : Draft) : List (List Char) :=
  draft.statements Text.returnWord

/-- A draft of nothing but lines. -/
def OnlyLines (draft : Draft) : Prop :=
  ∀ stroke ∈ draft, ∃ depth text, stroke = .line depth text

theorem returns_append (draft more : Draft) :
    returns (draft ++ more) = returns draft ++ returns more :=
  statements_append

theorem returns_line (depth : Nat) (text : String) (draft : Draft) :
    returns (.line depth text :: draft) = Text.returnsOf text ++ returns draft :=
  statements_line

/-- **The text of a draft returns what its lines return.** -/
theorem returnsOf_intercalate_lines {unit : String}
    (hunit : ∀ c ∈ unit.toList, Text.isIndent c = true) (draft : Draft) :
    Text.returnsOf ("\n".intercalate (Draft.lines unit draft)) = draft.returns := by
  have hword : Text.returnWord ≠ [] := List.cons_ne_nil _ _
  rw [Text.returnsOf, Text.statementsOf_intercalate hword, flatMap_lines hword hunit, returns]

end Draft

end RpcBindings
