/-!
# RpcBindings.Name.Words

Splitting a name into words.  Words consist of ASCII letters and digits; every other character
separates them, and inside a run of letters and digits a new word begins

1. at a capital after a lower-case letter or a digit (`user|Id`, `v2|Api`);
2. at the last capital of a run of capitals that a lower-case letter follows (`HTTP|Server`).

So `user_id`, `user-id`, `userId` and `UserID` all have two words.
-/

namespace RpcBindings.Name

/-- Whether a character belongs to a word: an ASCII letter or digit. -/
def isWordChar (c : Char) : Bool :=
  c.isAlphanum

/-- Whether a new word begins at `right`, which directly follows `left` and directly precedes
`next`. -/
def breaksBetween (left right : Char) (next : Option Char) : Bool :=
  ((left.isLower || left.isDigit) && right.isUpper) ||
    (left.isUpper && right.isUpper && next.any Char.isLower)

/-- Whether the first of the remaining characters continues the word that `c` is part of. -/
def continues (c : Char) : List Char → Bool
  | [] => false
  | d :: rest => isWordChar d && !breaksBetween c d rest.head?

/-- Puts a character in front of the first word. -/
def extendFirst (c : Char) : List (List Char) → List (List Char)
  | [] => [[c]]
  | word :: words => (c :: word) :: words

/-- The words of a name, in order. -/
def wordsOfChars : List Char → List (List Char)
  | [] => []
  | c :: rest =>
    if !isWordChar c then wordsOfChars rest
    else if continues c rest then extendFirst c (wordsOfChars rest)
    else [c] :: wordsOfChars rest

/-- Words consist of letters and digits. -/
theorem isWordChar_of_mem_wordsOfChars {name word : List Char} {c : Char}
    (hword : word ∈ wordsOfChars name) (hc : c ∈ word) : isWordChar c = true := by
  induction name generalizing word with
  | nil => simp [wordsOfChars] at hword
  | cons d rest ih =>
    rw [wordsOfChars] at hword
    split at hword
    · exact ih hword hc
    · rename_i hd
      have hd : isWordChar d = true := by simpa using hd
      split at hword
      · cases hw : wordsOfChars rest with
        | nil => grind [extendFirst]
        | cons first words => grind [extendFirst]
      · grind

/-- No word is empty. -/
theorem ne_nil_of_mem_wordsOfChars {name word : List Char} (h : word ∈ wordsOfChars name) :
    word ≠ [] := by
  induction name generalizing word with
  | nil => simp [wordsOfChars] at h
  | cons d rest ih =>
    rw [wordsOfChars] at h
    split at h
    · exact ih h
    · split at h
      · cases hw : wordsOfChars rest <;> grind [extendFirst]
      · grind

/-- The words of a name, in order. -/
def words (name : String) : List String :=
  (wordsOfChars name.toList).map String.ofList

end RpcBindings.Name
