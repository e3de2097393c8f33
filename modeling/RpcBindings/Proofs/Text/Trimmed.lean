import Mathlib.Data.List.DropRight
import RpcBindings.Text.Blank

/-!
# RpcBindings.Proofs.Text.Trimmed

Texts without blank characters at their ends.  These are the texts that trimming
gives, and trimming leaves just these as they are.
-/

namespace RpcBindings.Text

variable {cs : List Char} {s : String}

/-- No blank character at the end. -/
def EndsSolid (cs : List Char) : Prop :=
  ∀ c ∈ cs.getLast?, isBlank c = false

/-- No blank character at either end. -/
structure IsTrimmed (s : String) : Prop where
  start : ∀ c ∈ s.toList.head?, isBlank c = false
  ending : EndsSolid s.toList

/-- A trimmed text that can serve as a name. -/
structure IsName (s : String) : Prop where
  trimmed : IsTrimmed s
  nonempty : s ≠ ""

/-- A test of the one character, if there is one, since there are too many to try them all. -/
theorem all_not_isBlank_iff {c? : Option Char} :
    c?.all (!isBlank ·) = true ↔ ∀ c ∈ c?, isBlank c = false := by
  cases c? <;> simp

instance (cs : List Char) : Decidable (EndsSolid cs) :=
  decidable_of_iff (cs.getLast?.all (!isBlank ·) = true) all_not_isBlank_iff

instance (s : String) : Decidable (IsTrimmed s) :=
  decidable_of_iff (s.toList.head?.all (!isBlank ·) = true ∧ EndsSolid s.toList)
    ⟨fun h => ⟨all_not_isBlank_iff.1 h.1, h.2⟩, fun h => ⟨all_not_isBlank_iff.2 h.start, h.ending⟩⟩

instance (s : String) : Decidable (IsName s) :=
  decidable_of_iff (IsTrimmed s ∧ s ≠ "") ⟨fun h => ⟨h.1, h.2⟩, fun h => ⟨h.trimmed, h.nonempty⟩⟩

/-- Trimming at the end leaves no blank there. -/
theorem endsSolid_trimEndChars (cs : List Char) : EndsSolid (trimEndChars cs) := by
  intro c hc
  obtain ⟨hne, rfl⟩ := List.mem_getLast?_eq_getLast hc
  exact Bool.eq_false_iff.2 (List.rdropWhile_last_not isBlank cs hne)

/-- A text that ends in no blank is not trimmed at the end. -/
theorem trimEndChars_eq_self (h : EndsSolid cs) : trimEndChars cs = cs := by
  apply List.rdropWhile_eq_self_iff.2
  intro hne
  rw [h _ (List.getLast_mem_getLast? hne)]
  exact Bool.false_ne_true

/-- What is dropped at the end leaves the start as it is. -/
theorem start_trimChars {c : Char} (hc : c ∈ (trimChars cs).head?) : isBlank c = false := by
  obtain ⟨ending, hsplit⟩ := List.rdropWhile_prefix isBlank (cs.dropWhile isBlank)
  have hhead : c ∈ (cs.dropWhile isBlank).head? := by
    rw [← hsplit]
    exact List.mem_head?_append_of_mem_head? hc
  cases hrest : cs.dropWhile isBlank with
  | nil => simp [hrest] at hhead
  | cons first rest =>
      obtain rfl : first = c := by simpa [hrest] using hhead
      have hnot := List.head?_dropWhile_not isBlank cs
      simpa [hrest] using hnot

/-- A trimmed text has no blank on either side. -/
theorem isTrimmed_trim (s : String) : IsTrimmed (trim s) where
  start c hc := by
    rw [trim, String.toList_ofList] at hc
    exact start_trimChars hc
  ending := by
    rw [trim, String.toList_ofList]
    exact endsSolid_trimEndChars _

theorem dropWhile_eq_self (h : IsTrimmed s) : s.toList.dropWhile isBlank = s.toList := by
  cases hs : s.toList with
  | nil => rfl
  | cons c rest => rw [List.dropWhile_cons_of_neg (by simp [h.start c (by simp [hs])])]

/-- A text without blanks on either side is not trimmed. -/
theorem trim_eq_self (h : IsTrimmed s) : trim s = s := by
  rw [trim, trimChars, dropWhile_eq_self h, trimEndChars_eq_self h.ending, String.ofList_toList]

theorem isTrimmed_empty : IsTrimmed "" :=
  ⟨by simp, by simp [EndsSolid]⟩

/-- A solid end is where the dropping stops. -/
theorem trimEndChars_append (h : EndsSolid cs) (more : List Char) :
    trimEndChars (cs ++ more) = cs ++ trimEndChars more := by
  have hkept : cs.reverse.dropWhile isBlank = cs.reverse := by
    have hself := trimEndChars_eq_self h
    rwa [trimEndChars, List.reverse_eq_iff] at hself
  rw [trimEndChars, List.reverse_append, List.dropWhile_append, hkept, trimEndChars]
  split
  · next hempty => simp [List.isEmpty_iff.1 hempty]
  · simp

/-- Trimming stops at the last character that is no blank. -/
theorem trimEnd_append (h : EndsSolid s.toList) (t : String) :
    trimEnd (s ++ t) = s ++ trimEnd t := by
  apply String.toList_injective
  simp only [trimEnd, String.toList_append, String.toList_ofList, trimEndChars_append h]

/-- Trimming brings in no character. -/
theorem mem_of_mem_trim {c : Char} (hc : c ∈ (trim s).toList) : c ∈ s.toList := by
  rw [trim, trimChars, trimEndChars, String.toList_ofList, List.mem_reverse] at hc
  have hkept := List.mem_reverse.1 ((List.dropWhile_suffix isBlank).subset hc)
  exact (List.dropWhile_suffix isBlank).subset hkept

theorem trimEnd_eq_self (h : EndsSolid s.toList) : trimEnd s = s := by
  rw [trimEnd, trimEndChars_eq_self h, String.ofList_toList]

/-- Behind a name only the end is trimmed. -/
theorem IsName.trim_append (hs : IsName s) (t : String) : trim (s ++ t) = s ++ trimEnd t := by
  have hstart : (s ++ t).toList.dropWhile isBlank = (s ++ t).toList := by
    rw [String.toList_append, List.dropWhile_append, dropWhile_eq_self hs.trimmed, if_neg]
    simpa using hs.nonempty
  rw [trim, trimChars, hstart, ← trimEnd_append hs.trimmed.ending, trimEnd]

/-- What begins with a name and ends with a full stop is a name. -/
theorem IsName.append_stop (hs : IsName s) (t : String) : IsName (s ++ t ++ ".") where
  nonempty := by simp
  trimmed :=
    { start := by
        cases hlist : s.toList with
        | nil => exact absurd (String.toList_eq_nil_iff.1 hlist) hs.nonempty
        | cons c rest =>
            have hstart := hs.trimmed.start
            rw [hlist] at hstart
            rwa [String.toList_append, String.toList_append, hlist]
      ending := by
        intro c hc
        obtain rfl : '.' = c := by simpa using hc
        decide }

/-- What is trimmed together with a sentence behind it ends with the sentence. -/
theorem exists_trim_append (s : String) {t : String}
    (ht : t = "" ∨ ∃ sentence, t = " " ++ sentence ∧ IsName sentence) :
    ∃ front, trim (s ++ t) = front ++ trim t ∧ ∀ c ∈ front.toList, c ∈ s.toList ∨ c = ' ' := by
  obtain rfl | ⟨sentence, rfl, hname⟩ := ht
  · refine ⟨trim s, ?_, fun c hc => .inl (mem_of_mem_trim hc)⟩
    rw [trim_eq_self isTrimmed_empty, String.append_empty, String.append_empty]
  · have hspace : (' ' :: sentence.toList).dropWhile isBlank = sentence.toList := by
      rw [List.dropWhile_cons_of_pos (by decide), dropWhile_eq_self hname.trimmed]
    have hends : trimEndChars sentence.toList = sentence.toList :=
      trimEndChars_eq_self hname.trimmed.ending
    have htrim : trim (" " ++ sentence) = sentence := by
      have hlist : (" " ++ sentence).toList = ' ' :: sentence.toList := by simp
      rw [trim, trimChars, hlist, hspace, hends, String.ofList_toList]
    have hlist : (s ++ (" " ++ sentence)).toList = s.toList ++ ' ' :: sentence.toList := by simp
    rw [htrim, trim, trimChars, hlist, List.dropWhile_append]
    split
    · refine ⟨"", ?_, by simp⟩
      rw [hspace, hends, String.ofList_toList, String.empty_append]
    · refine ⟨String.ofList (s.toList.dropWhile isBlank) ++ " ", ?_, ?_⟩
      · have hsolid : EndsSolid (s.toList.dropWhile isBlank ++ ' ' :: sentence.toList) := by
          intro c hc
          apply hname.trimmed.ending
          have hne : sentence.toList ≠ [] := by simpa using hname.nonempty
          rwa [List.append_cons, List.getLast?_append_of_ne_nil _ hne] at hc
        rw [trimEndChars_eq_self hsolid]
        apply String.toList_injective
        simp
      · intro c hc
        rw [String.toList_append, String.toList_ofList, List.mem_append] at hc
        exact hc.imp (fun hc => (List.dropWhile_suffix isBlank).subset hc) (by simp)

/-- A trimmed text with something in it is a name. -/
theorem isName_trim (h : (trim s).isEmpty = false) : IsName (trim s) := by
  refine ⟨isTrimmed_trim s, ?_⟩
  rintro heq
  rw [heq] at h
  exact absurd h (by decide)

end RpcBindings.Text
