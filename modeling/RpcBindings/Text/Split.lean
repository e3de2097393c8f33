/-!
# RpcBindings.Text.Split

Cutting a text at every occurrence of one character.  The parts are one more than the occurrences,
and joining them with the character gives the text back.
-/

namespace RpcBindings.Text

/-- The parts of a text between the occurrences of a character. -/
def splitChars (sep : Char) : List Char → List (List Char)
  | [] => [[]]
  | c :: rest =>
    if c == sep then [] :: splitChars sep rest
    else
      match splitChars sep rest with
      | [] => [[c]]
      | part :: parts => (c :: part) :: parts

/-- There is always a part, if only an empty one. -/
theorem splitChars_ne_nil (sep : Char) (cs : List Char) : splitChars sep cs ≠ [] := by
  induction cs with
  | nil => simp [splitChars]
  | cons c rest ih =>
    by_cases h : c == sep
    · simp [splitChars, h]
    · cases hp : splitChars sep rest with
      | nil => exact absurd hp ih
      | cons part parts => simp [splitChars, h, hp]

/-- Joining the parts with the character gives the text back. -/
theorem intercalate_splitChars (sep : Char) (cs : List Char) :
    [sep].intercalate (splitChars sep cs) = cs := by
  induction cs with
  | nil => rfl
  | cons c rest ih =>
    rw [splitChars]
    split
    · rename_i h
      rw [List.intercalate_cons_of_ne_nil (splitChars_ne_nil sep rest), ih]
      simp_all
    · split
      · rename_i hnil
        exact absurd hnil (splitChars_ne_nil sep rest)
      · rename_i part parts hp
        rw [hp] at ih
        cases parts <;> simp_all [List.intercalate]

/-- The parts of a text between the occurrences of a character. -/
def split (sep : Char) (s : String) : List String :=
  (splitChars sep s.toList).map String.ofList

end RpcBindings.Text
