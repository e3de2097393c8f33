/-!
# RpcBindings.Text.ControlSequence

Control sequences, by which a text changes colours or moves the cursor on a terminal: the escape
character U+001B and a bracket, then digits, semicolons and question marks, and a letter at the end.
Output that does not go to a terminal is written without them.
-/

namespace RpcBindings.Text

/-- The characters between the bracket and the letter of a control sequence. -/
def isSequenceParameter (c : Char) : Bool :=
  c == ';' || c == '?' || c.isDigit

/-- What follows the control sequence in front of a text, if there is one; its escape character is
passed over already. -/
def afterSequence? : List Char → Option (List Char)
  | '[' :: rest =>
    match rest.dropWhile isSequenceParameter with
    | c :: after => if c.isAlpha then some after else none
    | [] => none
  | _ => none

/-- A control sequence is not empty. -/
theorem afterSequence?_length {cs after : List Char} (h : afterSequence? cs = some after) :
    after.length < cs.length := by
  unfold afterSequence? at h
  split at h
  · rename_i rest
    have hshort := (List.dropWhile_sublist (l := rest) isSequenceParameter).length_le
    split at h
    · rename_i c tail heq
      rw [heq] at hshort
      split at h
      · simp_all
        omega
      · simp at h
    · simp at h
  · simp at h

/-- Characters without the control sequences among them. -/
def withoutSequencesChars : List Char → List Char
  | [] => []
  | c :: rest =>
    if c = '\x1b' then
      match h : afterSequence? rest with
      | some after =>
        have := afterSequence?_length h
        withoutSequencesChars after
      | none => c :: withoutSequencesChars rest
    else c :: withoutSequencesChars rest
termination_by cs => cs.length
decreasing_by all_goals simp_wf <;> omega

/-- A text without escape characters holds no control sequence. -/
theorem withoutSequencesChars_eq_self {cs : List Char} (h : '\x1b' ∉ cs) :
    withoutSequencesChars cs = cs := by
  induction cs with
  | nil => simp [withoutSequencesChars]
  | cons c rest ih =>
    obtain ⟨hc, hrest⟩ : c ≠ '\x1b' ∧ '\x1b' ∉ rest := by
      simpa [List.mem_cons, eq_comm] using h
    rw [withoutSequencesChars, if_neg hc, ih hrest]

/-- A text without the control sequences in it. -/
def withoutSequences (s : String) : String :=
  if s.toList.contains '\x1b' then String.ofList (withoutSequencesChars s.toList) else s

end RpcBindings.Text
