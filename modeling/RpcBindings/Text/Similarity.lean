/-!
# RpcBindings.Text.Similarity

How alike two texts are, for suggesting what was meant by a mistyped name.  The longest run of
characters that both have is matched first, then what precedes it and what follows it in the same
way; two texts are the more alike the larger the share of matched characters in both.
-/

namespace RpcBindings.Text

/-! ## Runs -/

/-- The number of characters that two texts have in common at their beginnings. -/
def commonStart : List Char → List Char → Nat
  | a :: as, b :: bs => if a == b then commonStart as bs + 1 else 0
  | _, _ => 0

/-- A run of characters that two texts have in common: where it begins in each, and its length. -/
structure CommonRun where
  left : Nat
  right : Nat
  length : Nat

/-- The longest common run; of several, the one that begins first in the left text, then first in
the right one. -/
def longestRun (as bs : List Char) : CommonRun :=
  let starts := (List.range as.length).flatMap fun i => (List.range bs.length).map (i, ·)
  starts.foldl
    (fun best (i, j) =>
      let length := commonStart (as.drop i) (bs.drop j)
      if best.length < length then ⟨i, j, length⟩ else best)
    ⟨0, 0, 0⟩

/-- The number of matched characters, found in at most `fuel` nested steps. -/
def matchedWithin : Nat → List Char → List Char → Nat
  | 0, _, _ => 0
  | fuel + 1, as, bs =>
    let run := longestRun as bs
    if run.length == 0 then 0
    else
      matchedWithin fuel (as.take run.left) (bs.take run.right) + run.length +
        matchedWithin fuel (as.drop (run.left + run.length)) (bs.drop (run.right + run.length))

/-- The number of matched characters.  Each step leaves less of the left text. -/
def matched (as bs : List Char) : Nat :=
  matchedWithin as.length as bs

/-! ## Suggestions -/

/-- A candidate and the share of matched characters in it and the word together, as a fraction of
half the characters of both. -/
structure Likeness where
  candidate : String
  matched : Nat
  total : Nat

namespace Likeness

def of (word candidate : String) : Likeness where
  candidate := candidate
  matched := Text.matched candidate.toList word.toList
  total := candidate.length + word.length

/-- Whether at least three fifths of the characters are matched. -/
def isClose (l : Likeness) : Bool :=
  3 * l.total ≤ 10 * l.matched

/-- Whether one candidate is preferred to another: the likelier one, or the later in the alphabet of
two as likely. -/
def isPreferred (l other : Likeness) : Bool :=
  let here := l.matched * other.total
  let there := other.matched * l.total
  there < here || (here == there && other.candidate ≤ l.candidate)

end Likeness

/-- The candidates that may have been meant by a word: the three closest, best first. -/
def closest (word : String) (candidates : List String) : List String :=
  let close := (candidates.map (Likeness.of word)).filter Likeness.isClose
  ((close.mergeSort Likeness.isPreferred).take 3).map (·.candidate)

end RpcBindings.Text
