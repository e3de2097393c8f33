import Mathlib.Data.List.Basic
import RpcBindings.Proofs.Source.Lines

/-!
# RpcBindings.Proofs.Source.Statements

The statements in a source text that begin with some word, read off its lines.
Indentation plays no part, and the statements of a finished text are those of the
strokes that it was drafted with (`statementsOf_render`).  A text that begins a line
otherwise, and holds no line feed, keeps the word away from the rest of this line
(`Apart`); what is written behind it adds just those statements that stand on later
lines of its own (`straysOf`).
-/

namespace RpcBindings

namespace Text

/-! ## Readers -/

/-- What follows a beginning. -/
def after? : List Char → List Char → Option (List Char)
  | [], cs => some cs
  | _ :: _, [] => none
  | first :: front, c :: cs => if first == c then after? front cs else none

/-- What stands behind a beginning is found behind it. -/
theorem after?_append (front cs : List Char) : after? front (front ++ cs) = some cs := by
  induction front with
  | nil => rfl
  | cons first front ih => simp [after?, ih]

/-- A beginning is found only at the front of a text. -/
theorem eq_append_of_after? {front cs rest : List Char} (h : after? front cs = some rest) :
    cs = front ++ rest := by
  fun_induction after? front cs with
  | case1 cs =>
      obtain rfl := Option.some.inj h
      rfl
  | case2 => contradiction
  | case3 first front c cs heq ih => rw [← beq_iff_eq.1 heq, ih h, List.cons_append]
  | case4 => contradiction

/-- Whether a character serves for indentation. -/
def isIndent (c : Char) : Bool :=
  c == ' ' || c == '\t'

/-- What a line goes on with, if it begins with a word behind its indentation. -/
def behind? (word line : List Char) : Option (List Char) :=
  after? word (line.dropWhile isIndent)

/-- What the lines of a text that begin with a word go on with. -/
def statementsOf (word : List Char) (text : String) : List (List Char) :=
  (splitChars '\n' text.toList).filterMap (behind? word)

/-- What the lines behind the first line of a text go on with. -/
def straysOf (word : List Char) (text : String) : List (List Char) :=
  (splitChars '\n' text.toList).tail.filterMap (behind? word)

variable {word : List Char} {s t text : String}

theorem behind?_nil (hword : word ≠ []) : behind? word [] = none := by
  cases word with
  | nil => contradiction
  | cons c word => rfl

theorem statementsOf_empty (hword : word ≠ []) : statementsOf word "" = [] := by
  rw [statementsOf, String.toList_empty, splitChars, List.filterMap_cons_none (behind?_nil hword)]
  rfl

/-- A line feed parts the statements before it from those behind it. -/
theorem statementsOf_append_feed (s t : String) :
    statementsOf word (s ++ "\n" ++ t) = statementsOf word s ++ statementsOf word t := by
  have htext : (s ++ "\n" ++ t).toList = s.toList ++ '\n' :: t.toList := by
    rw [String.toList_append, String.toList_append, List.append_assoc]
    rfl
  rw [statementsOf, htext, splitChars_append_sep, List.filterMap_append]
  rfl

/-- Lines that are joined are statements each by itself. -/
theorem statementsOf_intercalate (hword : word ≠ []) (parts : List String) :
    statementsOf word ("\n".intercalate parts) = parts.flatMap (statementsOf word) := by
  induction parts with
  | nil => exact statementsOf_empty hword
  | cons part rest ih =>
      cases rest with
      | nil => simp
      | cons next rest =>
          have hcons : "\n".intercalate (part :: next :: rest) =
              part ++ "\n" ++ "\n".intercalate (next :: rest) := by
            apply String.toList_injective
            simp [List.intercalate]
          rw [hcons, statementsOf_append_feed, ih]
          rfl

/-- A statement on one line goes on behind its word. -/
theorem statementsOf_word {first : String} (hstart : first.toList.head?.any (!isIndent ·) = true)
    (hfeed : '\n' ∉ first.toList) (h : '\n' ∉ text.toList) :
    statementsOf first.toList (first ++ text) = [text.toList] := by
  have hdrop : (first ++ text).toList.dropWhile isIndent = first.toList ++ text.toList := by
    rw [String.toList_append]
    cases hfirst : first.toList with
    | nil => simp [hfirst] at hstart
    | cons c rest =>
        rw [List.cons_append, List.dropWhile_cons_of_neg]
        simpa [hfirst] using hstart
  have hbehind : behind? first.toList (first ++ text).toList = some text.toList := by
    rw [behind?, hdrop, after?_append]
  rw [statementsOf, splitChars_of_notMem (notMem_append.2 ⟨hfeed, h⟩),
    List.filterMap_cons_some hbehind]
  rfl

/-- Indentation plays no part. -/
theorem statementsOf_indented {indent : String} (h : ∀ c ∈ indent.toList, isIndent c = true) :
    statementsOf word (indent ++ text) = statementsOf word text := by
  rw [statementsOf, statementsOf, String.toList_append]
  generalize indent.toList = cs at h
  induction cs with
  | nil => rfl
  | cons c cs ih =>
      rw [List.forall_mem_cons] at h
      have hfeed : (c == '\n') = false := by
        rw [beq_eq_false_iff_ne]
        rintro rfl
        exact absurd h.1 (by decide)
      rw [List.cons_append, ← ih h.2]
      cases hsplit : splitChars '\n' (cs ++ text.toList) with
      | nil => exact absurd hsplit (splitChars_ne_nil _ _)
      | cons first others =>
          have hbehind : behind? word (c :: first) = behind? word first := by
            rw [behind?, behind?, List.dropWhile_cons_of_pos h.1]
          simp [splitChars, hfeed, hsplit, List.filterMap_cons, hbehind]

/-! ## Lines that begin otherwise -/

/-- Whether some characters are no beginning of the word, nor it a beginning of them. -/
def departs : List Char → List Char → Bool
  | first :: word, c :: cs => first != c || departs word cs
  | _, _ => false

/-- A text that departs from the word does not begin with it, whatever follows. -/
theorem after?_of_departs {cs : List Char} (h : departs word cs = true) (more : List Char) :
    after? word (cs ++ more) = none := by
  fun_induction departs word cs with
  | case1 first word c cs ih =>
      rw [Bool.or_eq_true, bne_iff_ne] at h
      rw [List.cons_append, after?]
      split
      · next heq => exact ih (h.resolve_left (absurd (beq_iff_eq.1 heq)))
      · rfl
  | case2 => contradiction

/-- A text that departs from the word still does with more behind it. -/
theorem departs_append {cs : List Char} (h : departs word cs = true) (more : List Char) :
    departs word (cs ++ more) = true := by
  fun_induction departs word cs with
  | case1 first word c cs ih =>
      rw [Bool.or_eq_true] at h
      rw [List.cons_append, departs, Bool.or_eq_true]
      exact h.imp_right ih
  | case2 => contradiction

/-- A text on one line that keeps a word away from the beginning of this line. -/
structure Apart (word : List Char) (text : String) : Prop where
  feed : '\n' ∉ text.toList
  departs : Text.departs word (text.toList.dropWhile isIndent) = true

instance (word : List Char) (text : String) : Decidable (Apart word text) :=
  decidable_of_iff ('\n' ∉ text.toList ∧ departs word (text.toList.dropWhile isIndent) = true)
    ⟨fun h => ⟨h.1, h.2⟩, fun h => ⟨h.feed, h.departs⟩⟩

/-- What departs goes on behind its indentation. -/
theorem dropWhile_append_of_departs {cs : List Char}
    (h : departs word (cs.dropWhile isIndent) = true) (more : List Char) :
    (cs ++ more).dropWhile isIndent = cs.dropWhile isIndent ++ more := by
  have hne : cs.dropWhile isIndent ≠ [] := by
    intro hnil
    rw [hnil, departs.eq_def] at h
    cases word <;> contradiction
  rw [List.dropWhile_append, if_neg (by simpa using hne)]

/-- A line is apart from the word by its first character. -/
theorem apart_of_cons {c : Char} {rest : List Char} (htext : text.toList = c :: rest)
    (hfeed : '\n' ∉ text.toList) (hindent : isIndent c = false) (h : departs word [c] = true) :
    Apart word text where
  feed := hfeed
  departs := by
    rw [htext, List.dropWhile_cons_of_neg (by simp [hindent])]
    exact departs_append h rest

/-- What follows on the line leaves it apart from the word. -/
theorem Apart.append (h : Apart word s) (ht : '\n' ∉ t.toList) : Apart word (s ++ t) where
  feed := notMem_append.2 ⟨h.feed, ht⟩
  departs := by
    rw [String.toList_append, dropWhile_append_of_departs h.departs]
    exact departs_append h.departs _

/-- Behind the beginning of a line, a text adds the statements on its later lines. -/
theorem Apart.statementsOf_append (h : Apart word s) (t : String) :
    statementsOf word (s ++ t) = straysOf word t := by
  have hsplit : splitChars '\n' (s.toList ++ t.toList) =
      (splitChars '\n' t.toList).modifyHead (s.toList ++ ·) :=
    splitChars_append_of_notMem h.feed _
  rw [statementsOf, String.toList_append, hsplit, straysOf]
  cases splitChars '\n' t.toList with
  | nil => rfl
  | cons first others =>
      have hbehind : behind? word (s.toList ++ first) = none := by
        rw [behind?, dropWhile_append_of_departs h.departs]
        exact after?_of_departs h.departs first
      rw [List.modifyHead_cons, List.filterMap_cons_none hbehind, List.tail_cons]

/-- A text on one line has no lines behind the first, so none that strays. -/
theorem straysOf_of_notMem (h : '\n' ∉ text.toList) : straysOf word text = [] := by
  rw [straysOf, splitChars_of_notMem h]
  rfl

/-- A line apart from the word makes no statement of it. -/
theorem Apart.statementsOf_eq_nil (h : Apart word text) : statementsOf word text = [] := by
  have hempty := h.statementsOf_append ""
  rwa [String.append_empty, straysOf_of_notMem (by simp)] at hempty

end Text

/-! ## Drafts -/

/-- The statements that a stroke writes. -/
def Stroke.statements (word : List Char) : Stroke → List (List Char)
  | .line _ text => Text.statementsOf word text
  | .gap => []
  | .block text => (Text.lines (Text.trimLineFeeds text)).flatMap (Text.statementsOf word)

/-- Behind its indentation a drafted line is its text. -/
theorem Stroke.dropWhile_textOf {unit : String} {p : Char → Bool}
    (hunit : ∀ c ∈ unit.toList, p c = true) (depth : Nat) (text : String) :
    (textOf unit depth text).toList.dropWhile p = text.toList.dropWhile p := by
  unfold textOf
  split
  · next hempty => rw [String.isEmpty_iff.1 hempty]
  · rw [String.toList_append, List.dropWhile_append_of_pos]
    exact fun c hc => hunit c (mem_unit_of_mem_indent hc)

namespace Draft

/-- A draft of lines that hold no line feeds. -/
def Straight (draft : Draft) : Prop :=
  ∀ stroke ∈ draft, ∃ depth text, stroke = .line depth text ∧ '\n' ∉ text.toList

@[simp] theorem straight_nil : Straight [] :=
  List.forall_mem_nil _

@[simp] theorem straight_line {depth : Nat} {text : String} {draft : Draft} :
    Straight (.line depth text :: draft) ↔ '\n' ∉ text.toList ∧ Straight draft := by
  simp [Straight]

@[simp] theorem straight_append {draft more : Draft} :
    Straight (draft ++ more) ↔ Straight draft ∧ Straight more :=
  List.forall_mem_append

theorem Straight.flatMap {α : Type} {xs : List α} {write : α → Draft}
    (h : ∀ x ∈ xs, Straight (write x)) : Straight (xs.flatMap write) :=
  List.forall_mem_flatMap.2 h

/-- Straight drafts stay so with empty lines between them. -/
theorem Straight.intercalate {α : Type} {xs : List α} {write : α → Draft}
    (h : ∀ x ∈ xs, Straight (write x)) : Straight ([emptyLine].intercalate (xs.map write)) := by
  induction xs with
  | nil => exact straight_nil
  | cons x rest ih =>
      rw [List.forall_mem_cons] at h
      cases rest with
      | nil =>
          rw [List.map_singleton, List.intercalate_singleton]
          exact h.1
      | cons next rest =>
          rw [List.map_cons, List.map_cons, List.intercalate_cons_cons, ← List.map_cons,
            straight_append, straight_append]
          exact ⟨⟨h.1, straight_line.2 ⟨by simp, straight_nil⟩⟩, ih h.2⟩

/-- The statements in the lines of a draft. -/
def statements (word : List Char) (draft : Draft) : List (List Char) :=
  draft.flatMap (Stroke.statements word)

variable {unit : String} {word : List Char} {draft more : Draft} {depth : Nat} {text : String}

@[simp] theorem statements_nil : statements word [] = [] :=
  rfl

@[simp] theorem statements_append :
    statements word (draft ++ more) = draft.statements word ++ more.statements word :=
  List.flatMap_append

theorem statements_flatMap {α : Type} (xs : List α) (write : α → Draft) :
    statements word (xs.flatMap write) = xs.flatMap fun x => (write x).statements word :=
  List.flatMap_assoc

/-- The statements of a draft begin with those of its first line. -/
theorem statements_line :
    statements word (.line depth text :: draft) =
      Text.statementsOf word text ++ draft.statements word :=
  List.flatMap_cons

@[simp] theorem statements_gap : statements word (.gap :: draft) = draft.statements word :=
  List.flatMap_cons

/-- A line apart from the word adds no statement. -/
theorem statements_apart (h : Text.Apart word text) :
    statements word (.line depth text :: draft) = draft.statements word := by
  rw [statements_line, h.statementsOf_eq_nil, List.nil_append]

theorem statements_emptyLine (hword : word ≠ []) :
    statements word (emptyLine :: draft) = draft.statements word := by
  rw [emptyLine, statements_line, Text.statementsOf_empty hword, List.nil_append]

/-- Ready texts make the statements of each text, in order. -/
theorem statements_ready (texts : List String) :
    statements word (ready texts) = texts.flatMap (Text.statementsOf word) := by
  rw [statements, ready, List.flatMap_map]
  rfl

/-- Ready texts that are apart from the word make no statement. -/
theorem statements_ready_apart {texts : List String} (hword : word ≠ [])
    (h : ∀ text ∈ texts, text = "" ∨ Text.Apart word text) :
    statements word (ready texts) = [] := by
  rw [statements_ready, List.flatMap_eq_nil_iff]
  intro text htext
  obtain rfl | hapart := h text htext
  · exact Text.statementsOf_empty hword
  · exact hapart.statementsOf_eq_nil

/-- The lines of a draft keep a word away from their beginnings, and some of them go on with texts
that stand there as they are. -/
inductive Carries (word : List Char) : Draft → List String → Prop
  | nil : Carries word [] []
  | empty {draft texts} (h : Carries word draft texts) : Carries word (emptyLine :: draft) texts
  | apart {depth line draft texts} (hline : Text.Apart word line) (h : Carries word draft texts) :
      Carries word (.line depth line :: draft) texts
  | text {depth front text draft texts} (hfront : Text.Apart word front)
      (h : Carries word draft texts) :
      Carries word (.line depth (front ++ text) :: draft) (text :: texts)

namespace Carries

variable {texts others : List String}

/-- Drafts that carry texts may be put one behind the other. -/
theorem append (h : Carries word draft texts) (hmore : Carries word more others) :
    Carries word (draft ++ more) (texts ++ others) := by
  induction h with
  | nil => exact hmore
  | empty _ ih => exact .empty ih
  | apart hline _ ih => exact .apart hline ih
  | text hfront _ ih => exact .text hfront ih

/-- A line that ends in a text or in quotes carries the text if it is there. -/
theorem textIf {isBare : Bool} {front text quoted : String} {depth : Nat}
    (hfront : Text.Apart word front) (hquoted : '\n' ∉ quoted.toList)
    (h : Carries word draft []) :
    Carries word (.line depth (front ++ if isBare then text else quoted) :: draft)
      (if isBare then [text] else []) := by
  cases isBare with
  | true => exact .text hfront h
  | false => exact .apart (hfront.append hquoted) h

/-- The drafts of a list carry the texts of each, in order. -/
theorem flatMap {α : Type} {xs : List α} {write : α → Draft} {texts : α → List String}
    (h : ∀ x ∈ xs, Carries word (write x) (texts x)) :
    Carries word (xs.flatMap write) (xs.flatMap texts) := by
  induction xs with
  | nil => exact .nil
  | cons x rest ih =>
      rw [List.forall_mem_cons] at h
      exact h.1.append (ih h.2)

/-- Empty lines between drafts carry nothing. -/
theorem intercalate {α : Type} {xs : List α} {write : α → Draft} {texts : α → List String}
    (h : ∀ x ∈ xs, Carries word (write x) (texts x)) :
    Carries word ([emptyLine].intercalate (xs.map write)) (xs.flatMap texts) := by
  induction xs with
  | nil => exact .nil
  | cons x rest ih =>
      rw [List.forall_mem_cons] at h
      cases rest with
      | nil =>
          rw [List.map_singleton, List.intercalate_singleton, List.flatMap_singleton]
          exact h.1
      | cons next rest =>
          rw [List.map_cons, List.map_cons, List.intercalate_cons_cons, List.flatMap_cons,
            ← List.map_cons, List.append_assoc]
          exact h.1.append (.empty (ih h.2))

/-- The statements of a draft stray from the texts that it carries. -/
theorem statements_eq (h : Carries word draft texts) (hword : word ≠ []) :
    draft.statements word = texts.flatMap (Text.straysOf word) := by
  induction h with
  | nil => rfl
  | empty _ ih => rw [statements_emptyLine hword, ih]
  | apart hline _ ih => rw [statements_apart hline, ih]
  | text hfront _ ih =>
      rw [statements_line, hfront.statementsOf_append, ih, List.flatMap_cons]

/-- Without line feeds in these texts, every line of the draft is one line. -/
theorem straight (h : Carries word draft texts) (htexts : ∀ text ∈ texts, '\n' ∉ text.toList) :
    draft.Straight := by
  induction h with
  | nil => exact straight_nil
  | empty _ ih => exact straight_line.2 ⟨by simp, ih htexts⟩
  | apart hline _ ih => exact straight_line.2 ⟨hline.feed, ih htexts⟩
  | text hfront _ ih =>
      rw [List.forall_mem_cons] at htexts
      exact straight_line.2 ⟨Text.notMem_append.2 ⟨hfront.feed, htexts.1⟩, ih htexts.2⟩

end Carries

/-- The indentation of a line changes nothing about its statements. -/
theorem statementsOf_textOf (hunit : ∀ c ∈ unit.toList, Text.isIndent c = true) (depth : Nat)
    (text : String) :
    Text.statementsOf word (Stroke.textOf unit depth text) = Text.statementsOf word text := by
  unfold Stroke.textOf
  split
  · next hempty => rw [String.isEmpty_iff.1 hempty]
  · exact Text.statementsOf_indented fun c hc => hunit c (Stroke.mem_unit_of_mem_indent hc)

/-- Whatever lines a draft is written onto, its statements are added to theirs. -/
theorem flatMap_foldl_write (hword : word ≠ [])
    (hunit : ∀ c ∈ unit.toList, Text.isIndent c = true) (draft : Draft) (before : List String) :
    (draft.foldl (Stroke.write unit) before).flatMap (Text.statementsOf word) =
      before.flatMap (Text.statementsOf word) ++ draft.statements word := by
  induction draft generalizing before with
  | nil => simp
  | cons stroke rest ih =>
      rw [List.foldl_cons, ih, ← List.singleton_append, statements_append, ← List.append_assoc]
      congr 1
      cases stroke with
      | line depth text =>
          have htext := @statementsOf_textOf unit word hunit depth text
          rw [Stroke.textOf] at htext
          rw [Stroke.write, List.flatMap_append, List.flatMap_singleton, htext, statements_line,
            statements_nil, List.append_nil]
      | block text => simp [Stroke.write, statements, Stroke.statements]
      | gap =>
          rw [Stroke.write]
          split <;> simp [Text.statementsOf_empty hword]

/-- No statement is left out with the empty lines at the end. -/
theorem flatMap_dropEmptyEnd (hword : word ≠ []) (lines : List String) :
    (dropEmptyEnd lines).flatMap (Text.statementsOf word) =
      lines.flatMap (Text.statementsOf word) := by
  have hlines : lines = dropEmptyEnd lines ++ (lines.reverse.takeWhile (·.isEmpty)).reverse := by
    rw [dropEmptyEnd, ← List.reverse_append, List.takeWhile_append_dropWhile, List.reverse_reverse]
  have hempty : (lines.reverse.takeWhile (·.isEmpty)).reverse.flatMap
      (Text.statementsOf word) = [] := by
    rw [List.flatMap_eq_nil_iff]
    intro line hline
    have hkept := List.all_eq_true.1 (List.all_takeWhile (l := lines.reverse)) line
      (List.mem_reverse.1 hline)
    rw [String.isEmpty_iff.1 hkept]
    exact Text.statementsOf_empty hword
  conv_rhs => rw [hlines, List.flatMap_append, hempty, List.append_nil]

/-- The statements of the lines are those of the draft. -/
theorem flatMap_lines (hword : word ≠ []) (hunit : ∀ c ∈ unit.toList, Text.isIndent c = true)
    (draft : Draft) :
    (Draft.lines unit draft).flatMap (Text.statementsOf word) = draft.statements word :=
  flatMap_foldl_write hword hunit draft []

/-- **The statements of a finished text are those of its draft.** -/
theorem statementsOf_render (hword : word ≠ [])
    (hunit : ∀ c ∈ unit.toList, Text.isIndent c = true) (draft : Draft) :
    Text.statementsOf word (render unit draft) = draft.statements word := by
  have hrender : render unit draft =
      "\n".intercalate (dropEmptyEnd (Draft.lines unit draft)) ++ "\n" ++ "" := by
    rw [render, String.append_empty]
  rw [hrender, Text.statementsOf_append_feed, Text.statementsOf_empty hword, List.append_nil,
    Text.statementsOf_intercalate hword, flatMap_dropEmptyEnd hword, flatMap_lines hword hunit]

end Draft

end RpcBindings
