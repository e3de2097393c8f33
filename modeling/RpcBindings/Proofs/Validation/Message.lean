import RpcBindings.Name.Words
import RpcBindings.Proofs.Source.Returns
import RpcBindings.Validation.Step

/-!
# RpcBindings.Proofs.Validation.Message

What the message about allowed texts tells.  It lists the texts between quotes, with commas
between them, and the texts may hold quotes and commas themselves; but in front of a quote
that belongs to a text stands a backslash, and in front of a backslash another one.  So the
quote that closes a text can be told from all others, and the texts can be read off the
message (`enumMessage_unambiguous`).
-/

namespace RpcBindings

variable {c : Char} {text rest cs : List Char} {texts more : List (List Char)}
  {message : String} {allowed : List String}

/-! ## Reading -/

/-- Where a reader of listed texts stands. -/
inductive ListSpot where
  /-- Between two characters of a text. -/
  | inside
  /-- Behind a backslash. -/
  | escape
  /-- Behind the quote that closes a text. -/
  | behind

/-- The texts that are listed from here on, with what is left of the one that the reader is
inside of. -/
def readListed : ListSpot → List Char → Option (List (List Char))
  | .inside, [] | .escape, [] => none
  | .inside, c :: rest =>
    if c == '"' then (readListed .behind rest).map ([] :: ·)
    else if c == '\\' then readListed .escape rest
    else (readListed .inside rest).map (Name.extendFirst c)
  | .escape, c :: rest =>
    if c == '\\' || c == '"' then (readListed .inside rest).map (Name.extendFirst c) else none
  | .behind, [] => some []
  | .behind, ',' :: ' ' :: '"' :: rest => readListed .inside rest
  | .behind, _ => none

/-- The texts that a message lists, if it is one about allowed texts. -/
def readEnumMessage (message : String) : Option (List String) :=
  match Text.after? "must be one of: ".toList message.toList with
  | some [] => some []
  | some ('"' :: rest) => (readListed .inside rest).map (List.map String.ofList)
  | _ => none

/-! ## Writing -/

/-- One character of an allowed text between its quotes. -/
def escapeAllowed (c : Char) : List Char :=
  if c == '\\' || c == '"' then ['\\', c] else [c]

/-- What is written for texts behind another one. -/
def listBehind (texts : List (List Char)) : List Char :=
  texts.flatMap fun text => ',' :: ' ' :: allowedChars text

/-- What is written for a text behind its first quote, and for those that follow it. -/
def listFrom (text : List Char) (more : List (List Char)) : List Char :=
  text.flatMap escapeAllowed ++ '"' :: listBehind more

/-- What is written for all texts. -/
def listAll : List (List Char) → List Char
  | [] => []
  | text :: more => '"' :: listFrom text more

/-- A member stands between quotation marks, character by character. -/
theorem allowedChars_eq (text : List Char) :
    allowedChars text = '"' :: (text.flatMap escapeAllowed ++ ['"']) := rfl

theorem listFrom_cons (c : Char) (text : List Char) (more : List (List Char)) :
    listFrom (c :: text) more = escapeAllowed c ++ listFrom text more := by
  rw [listFrom, List.flatMap_cons, List.append_assoc, listFrom]

theorem listBehind_cons (text : List Char) (more : List (List Char)) :
    listBehind (text :: more) = ',' :: ' ' :: '"' :: listFrom text more := by
  simp [listBehind, listFrom, allowedChars_eq]

/-- Joining the texts with commas is writing the first one and listing the others behind it. -/
theorem intercalate_allowedChars (texts : List (List Char)) :
    [',', ' '].intercalate (texts.map allowedChars) = listAll texts := by
  cases texts with
  | nil => rfl
  | cons text more =>
      rw [listAll]
      induction more generalizing text with
      | nil => simp [listFrom, listBehind, allowedChars_eq]
      | cons next more ih =>
          rw [List.map_cons, List.intercalate_cons_of_ne_nil (by simp), ih next, allowedChars_eq]
          simp [listFrom, listBehind_cons]

/-- The message of an enumeration is its fixed beginning and the list of the members. -/
theorem toList_enumMessage (allowed : List String) :
    (enumMessage allowed).toList =
      "must be one of: ".toList ++ listAll (allowed.map String.toList) := by
  have hsep : ", ".toList = [',', ' '] := rfl
  have htexts : (allowed.map fun text => String.ofList (allowedChars text.toList)).map
      String.toList = (allowed.map String.toList).map allowedChars := by
    simp
  show ("must be one of: " ++ ", ".intercalate (allowed.map fun text =>
    String.ofList (allowedChars text.toList))).toList = _
  rw [String.toList_append, String.toList_intercalate, htexts, hsep, intercalate_allowedChars]

/-! ## What is written is read -/

/-- A character of a text is read as it was written. -/
theorem readListed_escapeAllowed (c : Char) (rest : List Char) :
    readListed .inside (escapeAllowed c ++ rest) =
      (readListed .inside rest).map (Name.extendFirst c) := by
  unfold escapeAllowed
  split
  · next h => simp [readListed, h]
  · next h =>
    simp only [Bool.or_eq_true, beq_iff_eq, not_or] at h
    simp [readListed, h.1, h.2]

/-- Reading inside a member gives back the member and those behind it. -/
theorem readListed_listFrom (text : List Char) (more : List (List Char)) :
    readListed .inside (listFrom text more) = some (text :: more) := by
  have hbehind : ∀ more, readListed .behind (listBehind more) = some more →
      ∀ text, readListed .inside (listFrom text more) = some (text :: more) := by
    intro more hmore text
    induction text with
    | nil => simp [listFrom, readListed, hmore]
    | cons c text ih =>
        rw [listFrom_cons, readListed_escapeAllowed, ih]
        rfl
  induction more generalizing text with
  | nil => exact hbehind [] rfl text
  | cons next more ih =>
      refine hbehind _ ?_ text
      rw [listBehind_cons, readListed]
      exact ih next

/-! ## What is read was written -/

/-- The characters from which a reader reads texts. -/
def Lists : ListSpot → List (List Char) → List Char → Prop
  | .inside, texts, cs => ∃ text more, texts = text :: more ∧ cs = listFrom text more
  | .escape, texts, cs => ∃ c text more, (c == '\\' || c == '"') = true ∧
      texts = (c :: text) :: more ∧ cs = c :: listFrom text more
  | .behind, texts, cs => cs = listBehind texts

/-- What is read from a list of members is what stands in it. -/
theorem lists_of_readListed {spot : ListSpot} (h : readListed spot cs = some texts) :
    Lists spot texts cs := by
  fun_induction readListed spot cs generalizing texts with
  | case3 c rest hquote ih =>
      obtain rfl := beq_iff_eq.1 hquote
      obtain ⟨more, hmore, rfl⟩ := Option.map_eq_some_iff.1 h
      exact ⟨[], more, rfl, by rw [ih hmore]; rfl⟩
  | case4 c rest _ hslash ih =>
      obtain rfl := beq_iff_eq.1 hslash
      obtain ⟨c, text, more, hc, rfl, rfl⟩ := ih h
      exact ⟨c :: text, more, rfl, by rw [listFrom_cons, escapeAllowed, if_pos hc]; rfl⟩
  | case5 c rest hquote hslash ih =>
      obtain ⟨texts, htexts, rfl⟩ := Option.map_eq_some_iff.1 h
      obtain ⟨text, more, rfl, rfl⟩ := ih htexts
      have hc : ¬ (c == '\\' || c == '"') = true := by simp_all
      exact ⟨c :: text, more, rfl, by rw [listFrom_cons, escapeAllowed, if_neg hc]; rfl⟩
  | case6 c rest hc ih =>
      obtain ⟨texts, htexts, rfl⟩ := Option.map_eq_some_iff.1 h
      obtain ⟨text, more, rfl, rfl⟩ := ih htexts
      exact ⟨c, text, more, hc, rfl, rfl⟩
  | case8 =>
      obtain rfl := Option.some.inj h
      rfl
  | case9 rest ih =>
      obtain ⟨text, more, rfl, rfl⟩ := ih h
      exact (listBehind_cons text more).symm
  | case1 | case2 | case7 | case10 => contradiction

/-! ## Messages -/

/-- The members are read back from the message. -/
theorem readEnumMessage_enumMessage (allowed : List String) :
    readEnumMessage (enumMessage allowed) = some allowed := by
  rw [readEnumMessage, toList_enumMessage, Text.after?_append]
  cases allowed with
  | nil => rfl
  | cons text more =>
      simp only [List.map_cons, listAll, readListed_listFrom, Option.map_some]
      simp [Function.comp_def]

/-- Only the message of a list of members is read as that list. -/
theorem eq_enumMessage_of_readEnumMessage (h : readEnumMessage message = some allowed) :
    message = enumMessage allowed := by
  apply String.toList_injective
  rw [toList_enumMessage]
  unfold readEnumMessage at h
  split at h
  · next hafter =>
    obtain rfl := Option.some.inj h
    exact Text.eq_append_of_after? hafter
  · next rest hafter =>
    obtain ⟨texts, htexts, rfl⟩ := Option.map_eq_some_iff.1 h
    obtain ⟨text, more, rfl, rfl⟩ := lists_of_readListed htexts
    rw [Text.eq_append_of_after? hafter]
    simp [Function.comp_def, listAll]
  · contradiction

/-- **The message about allowed texts is unambiguous.**  Whatever the texts hold, they are
read off the message in their order, and nothing else is read as such a message; so different
texts have different messages. -/
theorem enumMessage_unambiguous :
    (∀ message allowed, readEnumMessage message = some allowed ↔ message = enumMessage allowed) ∧
      Function.Injective enumMessage := by
  refine ⟨fun message allowed => ⟨eq_enumMessage_of_readEnumMessage, ?_⟩, ?_⟩
  · rintro rfl
    exact readEnumMessage_enumMessage allowed
  · intro allowed others heq
    have hread := readEnumMessage_enumMessage allowed
    rw [heq, readEnumMessage_enumMessage others, Option.some.injEq] at hread
    exact hread.symm

example : readEnumMessage "must be one of: \"a\\\", \\\"b\", \"\", \"\\\\\"" =
    some ["a\", \"b", "", "\\"] := by
  decide

end RpcBindings
