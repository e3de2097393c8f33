import Mathlib.Data.List.Basic
import RpcBindings.Proofs.Source.Lines
import RpcBindings.Proofs.Text.Trimmed

/-!
# RpcBindings.Proofs.Source.Comments

The lines of a text that are no comments.  A comment that is drafted as one line ends at
the first line feed of its text; what stands behind it is its overrun, and counts as
code wherever it does not begin with the comment marker by chance.  Drafts that differ in
their comments only are compared stroke by stroke (`Draft.Annotates`): the finished
texts have the same code just where the overruns are the same.
-/

namespace RpcBindings

/-! ## Lists that stay the same or grow -/

/-- The second list is no shorter than the first, and is the same just where `P`. -/
structure GrowsUnless {α : Type} (P : Prop) (xs ys : List α) : Prop where
  length_le : xs.length ≤ ys.length
  eq_iff : xs = ys ↔ P

namespace GrowsUnless

variable {α β : Type} {P Q : Prop} {xs ys xs' ys' : List β}

theorem refl (xs : List β) : GrowsUnless True xs xs := ⟨le_rfl, by simp⟩

/-- Equivalent conditions leave the same growth. -/
theorem congr (h : GrowsUnless P xs ys) (hPQ : P ↔ Q) : GrowsUnless Q xs ys :=
  ⟨h.length_le, h.eq_iff.trans hPQ⟩

/-- Joined lists are the same only if both parts are, since neither part gets shorter. -/
theorem append (h : GrowsUnless P xs ys) (h' : GrowsUnless Q xs' ys') :
    GrowsUnless (P ∧ Q) (xs ++ xs') (ys ++ ys') where
  length_le := by
    simp only [List.length_append]
    exact Nat.add_le_add h.length_le h'.length_le
  eq_iff := by
    rw [← h.eq_iff, ← h'.eq_iff]
    constructor
    · intro heq
      have hlength := congrArg List.length heq
      simp only [List.length_append] at hlength
      have hle := h.length_le
      have hle' := h'.length_le
      exact List.append_inj heq (by omega)
    · rintro ⟨rfl, rfl⟩
      rfl

/-- Members that each grow unless a condition holds grow together unless all the conditions hold. -/
theorem flatMap {members : List α} {f g : α → List β} {P : α → Prop}
    (h : ∀ x ∈ members, GrowsUnless (P x) (f x) (g x)) :
    GrowsUnless (∀ x ∈ members, P x) (members.flatMap f) (members.flatMap g) := by
  induction members with
  | nil => exact (refl []).congr (by simp)
  | cons x rest ih =>
      rw [List.forall_mem_cons] at h
      rw [List.flatMap_cons, List.flatMap_cons, List.forall_mem_cons]
      exact h.1.append (ih h.2)

end GrowsUnless

/-! ## Comments and overruns -/

namespace Text

variable {sep : Char} {marker s t : String}

/-- Whether the first characters of a line that are not blank are the marker of comments. -/
def isComment (marker line : String) : Bool :=
  marker.toList.isPrefixOf (line.toList.dropWhile isBlank)

/-- The lines of a text that are no comments.  A line ends at a line feed, as comments
do. -/
def codeLines (marker text : String) : List String :=
  (split '\n' text).filter (!isComment marker ·)

/-- The lines behind the first line of a text that are no comments: what is left of the
text as code when its beginning stands in a comment. -/
def overrun (marker text : String) : List String :=
  (split '\n' text).tail.filter (!isComment marker ·)

/-- What is appended to a text continues its last part. -/
theorem exists_splitChars_append (sep : Char) (cs : List Char) :
    ∃ front last, splitChars sep cs = front ++ [last] ∧ (front = [] ↔ sep ∉ cs) ∧
      ∀ more, splitChars sep (cs ++ more) =
        front ++ (splitChars sep more).modifyHead (last ++ ·) := by
  induction cs with
  | nil =>
      refine ⟨[], [], rfl, by simp, fun more => ?_⟩
      cases hmore : splitChars sep more with
      | nil => exact absurd hmore (splitChars_ne_nil sep more)
      | cons part parts => simp [hmore]
  | cons c rest ih =>
      obtain ⟨front, last, hsplit, hfront, hmore⟩ := ih
      by_cases hc : c = sep
      · refine ⟨[] :: front, last, ?_, ?_, fun more => ?_⟩
        · simp [splitChars, hc, hsplit]
        · simp [hc]
        · simp [splitChars, hc, hmore]
      · have hcs : sep ≠ c := Ne.symm hc
        cases front with
        | nil =>
            refine ⟨[], c :: last, ?_, ?_, fun more => ?_⟩
            · simp [splitChars, hc, hsplit]
            · simpa [hcs] using hfront
            · have hne := splitChars_ne_nil sep more
              rw [List.cons_append, splitChars, if_neg (by simpa using hc), hmore]
              cases hparts : splitChars sep more with
              | nil => exact absurd hparts hne
              | cons part parts => rfl
        | cons part parts =>
            refine ⟨(c :: part) :: parts, last, ?_, ?_, fun more => ?_⟩
            · simp [splitChars, hc, hsplit]
            · simpa [hcs] using hfront
            · simp [splitChars, hc, hmore]

/-- What is appended to a text goes to the last of its parts. -/
theorem exists_split_append (sep : Char) (s : String) :
    ∃ front last, split sep s = front ++ [last] ∧ (front = [] ↔ sep ∉ s.toList) ∧
      ∀ t, split sep (s ++ t) = front ++ (split sep t).modifyHead (last ++ ·) := by
  obtain ⟨front, last, hsplit, hfront, hmore⟩ := exists_splitChars_append sep s.toList
  refine ⟨front.map String.ofList, String.ofList last, ?_, ?_, fun t => ?_⟩
  · rw [split, hsplit, List.map_append, List.map_singleton]
  · rw [List.map_eq_nil_iff, hfront]
  · rw [split, String.toList_append, hmore, List.map_append, split]
    cases splitChars sep t.toList with
    | nil => rfl
    | cons part parts => simp

/-- A text on one line leaves nothing outside its comment. -/
theorem overrun_of_notMem (h : '\n' ∉ s.toList) : overrun marker s = [] := by
  rw [overrun, split_of_notMem h]
  rfl

/-- What stands on the first line adds nothing to the overrun. -/
theorem overrun_append_of_notMem (h : '\n' ∉ s.toList) (t : String) :
    overrun marker (s ++ t) = overrun marker t := by
  obtain ⟨front, last, -, hfront, hmore⟩ := exists_split_append '\n' s
  rw [overrun, hmore, hfront.2 h, List.nil_append, List.tail_modifyHead]
  rfl

/-- What stands in front of a text takes nothing from its overrun. -/
theorem length_overrun_le (s t : String) :
    (overrun marker t).length ≤ (overrun marker (s ++ t)).length := by
  by_cases h : '\n' ∈ s.toList
  · obtain ⟨front, last, -, hfront, hmore⟩ := exists_split_append '\n' s
    cases front with
    | nil => exact absurd h (hfront.1 rfl)
    | cons part parts =>
        have htail : (split '\n' t).tail <:+ ((split '\n' t).modifyHead (last ++ ·)) := by
          cases split '\n' t with
          | nil => exact List.nil_suffix
          | cons first rest => exact List.suffix_cons _ _
        rw [overrun, overrun, hmore, List.cons_append, List.tail_cons]
        exact ((htail.trans (List.suffix_append _ _)).sublist.filter _).length_le
  · rw [overrun_append_of_notMem h]

/-- What stands behind the first part begins a part of its own, or continues the last. -/
theorem exists_append_of_split (sep : Char) (front : List (List Char)) (last : List Char) :
    ∃ before, [sep].intercalate (front ++ [last]) = before ++ last ∧
      ∀ c ∈ before.getLast?, c = sep := by
  induction front with
  | nil => exact ⟨[], by simp [List.intercalate], by simp⟩
  | cons part rest ih =>
      obtain ⟨before, hbefore, hsep⟩ := ih
      refine ⟨part ++ sep :: before, ?_, fun c hc => ?_⟩
      · rw [List.cons_append, List.intercalate_cons_of_ne_nil (by simp), hbefore]
        simp
      · rw [List.getLast?_append_of_ne_nil _ (List.cons_ne_nil sep before),
          List.getLast?_cons] at hc
        cases hlast : before.getLast? with
        | none => simpa [hlast, eq_comm] using hc
        | some d =>
            obtain rfl : d = c := by simpa [hlast] using hc
            exact hsep d (by simp [hlast])

/-- The last line of a name is not blank. -/
theorem exists_solid_of_split {front : List String} {last : String} (hs : IsName s)
    (h : split '\n' s = front ++ [last]) : ∃ c ∈ last.toList, isBlank c = false := by
  obtain ⟨parts, ends, hsplit, -, hlast⟩ := List.map_eq_append_iff.1 h
  obtain ⟨part, rfl, rfl⟩ := List.map_eq_singleton_iff.1 hlast
  obtain ⟨before, hbefore, hfeed⟩ := exists_append_of_split '\n' parts part
  rw [← hsplit, intercalate_splitChars] at hbefore
  rw [String.toList_ofList]
  cases hend : part.getLast? with
  | some c =>
      refine ⟨c, List.mem_of_getLast? hend, hs.trimmed.ending c ?_⟩
      rw [hbefore, List.getLast?_append, hend]
      rfl
  | none =>
      obtain rfl := List.getLast?_eq_none_iff.1 hend
      rw [List.append_nil] at hbefore
      cases hlast : before.getLast? with
      | none =>
          rw [List.getLast?_eq_none_iff.1 hlast] at hbefore
          exact absurd (String.toList_eq_nil_iff.1 hbefore) hs.nonempty
      | some c =>
          -- A name does not end with a line feed.
          have hsolid := hs.trimmed.ending c (by rw [hbefore, hlast]; rfl)
          rw [hfeed c hlast] at hsolid
          contradiction

/-! ## Comment lines -/

/-- A marker of comments: it begins with a character that is not blank, and stands on
one line. -/
structure IsMarker (marker : String) : Prop where
  solid : ∃ c ∈ marker.toList.head?, isBlank c = false
  feed : '\n' ∉ marker.toList

/-- A line with the marker behind its indentation is a comment. -/
theorem isComment_append {indent : String} (hmarker : IsMarker marker)
    (hblank : ∀ c ∈ indent.toList, isBlank c = true) (text : String) :
    isComment marker (indent ++ (marker ++ text)) = true := by
  obtain ⟨c, hc, hsolid⟩ := hmarker.solid
  obtain ⟨rest, hrest⟩ := List.head?_eq_some_iff.1 hc
  rw [isComment, String.toList_append, String.toList_append,
    List.dropWhile_append_of_pos hblank, hrest, List.cons_append,
    List.dropWhile_cons_of_neg (by simp [hsolid]), ← List.cons_append]
  simp

/-- Lines that are joined are code each by itself. -/
theorem codeLines_intercalate {parts : List String} (h : parts ≠ []) :
    codeLines marker ("\n".intercalate parts) = parts.flatMap (codeLines marker) := by
  have hsplit : split '\n' ("\n".intercalate parts) = parts.flatMap (split '\n') :=
    split_intercalate h
  rw [codeLines, hsplit, List.filter_flatMap]
  rfl

/-- A line that is no comment is code. -/
theorem codeLines_of_notMem (hfeed : '\n' ∉ s.toList) (hcode : isComment marker s = false) :
    codeLines marker s = [s] := by
  rw [codeLines, split_of_notMem hfeed, List.filter_cons, hcode]
  rfl

/-- Of a text in a comment only the overrun is code. -/
theorem codeLines_comment {indent : String} (hmarker : IsMarker marker)
    (hblank : ∀ c ∈ indent.toList, isBlank c = true) (hfeed : '\n' ∉ indent.toList)
    (text : String) : codeLines marker (indent ++ (marker ++ text)) = overrun marker text := by
  have hhead : '\n' ∉ (indent ++ marker).toList := notMem_append.2 ⟨hfeed, hmarker.feed⟩
  obtain ⟨front, last, hsplit, hfront, hmore⟩ := exists_split_append '\n' (indent ++ marker)
  obtain rfl := hfront.2 hhead
  obtain rfl : indent ++ marker = last := by simpa [split_of_notMem hhead] using hsplit
  rw [← String.append_assoc, codeLines, hmore, List.nil_append, overrun]
  cases split '\n' text with
  | nil => rfl
  | cons first rest =>
      have hcomment : isComment marker (indent ++ marker ++ first) = true := by
        rw [String.append_assoc]
        exact isComment_append hmarker hblank first
      rw [List.modifyHead_cons, List.filter_cons, hcomment]
      rfl

/-- A line that is not blank is a comment or none, whatever is appended to it, where
the marker is a single character. -/
theorem isComment_append_of_solid (c : Char) (hs : ∃ d ∈ s.toList, isBlank d = false)
    (t : String) :
    isComment (String.singleton c) (s ++ t) = isComment (String.singleton c) s := by
  have hne : s.toList.dropWhile isBlank ≠ [] := by
    obtain ⟨d, hd, hsolid⟩ := hs
    intro hnil
    rw [List.dropWhile_eq_nil_iff.1 hnil d hd] at hsolid
    contradiction
  rw [isComment, isComment, String.toList_append, List.dropWhile_append,
    if_neg (by simpa using hne), String.toList_singleton]
  cases hdrop : s.toList.dropWhile isBlank with
  | nil => contradiction
  | cons first rest => simp [List.isPrefixOf]

/-- What stands behind a name adds its own overrun to that of the name, where the
marker is a single character. -/
theorem length_overrun_append (c : Char) (hs : IsName s) (t : String) :
    (overrun (String.singleton c) (s ++ t)).length =
      (overrun (String.singleton c) s).length + (overrun (String.singleton c) t).length := by
  obtain ⟨front, last, hsplit, hfront, hmore⟩ := exists_split_append '\n' s
  have hsolid := exists_solid_of_split hs hsplit
  rw [overrun, overrun, overrun, hmore, hsplit]
  cases hparts : split '\n' t with
  | nil => simp [split, splitChars_ne_nil] at hparts
  | cons head tail =>
      cases front with
      | nil => simp
      | cons part parts =>
          have hlast := isComment_append_of_solid c hsolid head
          simp only [List.modifyHead_cons, List.cons_append, List.tail_cons, List.filter_append,
            List.filter_cons, List.length_append, hlast]
          split
          · simp only [List.length_cons, List.filter_nil, List.length_nil]
            omega
          · simp

end Text

/-- Indentation is blank, and stands on one line. -/
structure Text.IsIndent (unit : String) : Prop where
  blank : ∀ c ∈ unit.toList, isBlank c = true
  feed : '\n' ∉ unit.toList

/-- A drafted comment is code as far as its text overruns it. -/
theorem Stroke.codeLines_textOf {unit marker : String} (hmarker : Text.IsMarker marker)
    (hunit : Text.IsIndent unit) (depth : Nat) (text : String) :
    Text.codeLines marker (textOf unit depth (marker ++ text)) = Text.overrun marker text := by
  have hne : (marker ++ text).isEmpty = false := by
    obtain ⟨c, hc, -⟩ := hmarker.solid
    have hmarker : marker ≠ "" := by
      rintro rfl
      simp at hc
    simp [hmarker]
  rw [textOf, hne]
  exact Text.codeLines_comment hmarker (fun c hc => hunit.blank c (mem_unit_of_mem_indent hc))
    (fun hc => hunit.feed (mem_unit_of_mem_indent hc)) text

/-! ## Drafts with other comments -/

namespace Draft

variable {unit marker : String} {P Q : Prop} {draft draft' more more' : Draft}
  {lines lines' : List String}

/-- Drafted lines that have a non-empty line and all behind it in common; in front of
it the code grows unless `P`. -/
inductive Agrees (marker : String) (P : Prop) : List String → List String → Prop where
  | intro {before before' : List String} {line : String} (rest : List String)
      (hcode : GrowsUnless P (before.flatMap (Text.codeLines marker))
        (before'.flatMap (Text.codeLines marker)))
      (hline : line ≠ "") : Agrees marker P (before ++ line :: rest) (before' ++ line :: rest)

/-- The second draft is the first with other comments: onto whatever lines both are
written, the code grows unless `Q`. -/
def Annotates (unit marker : String) (Q : Prop) (draft draft' : Draft) : Prop :=
  ∀ P lines lines', Agrees marker P lines lines' →
    Agrees marker (P ∧ Q) (draft.foldl (Stroke.write unit) lines)
      (draft'.foldl (Stroke.write unit) lines')

theorem Agrees.congr (h : Agrees marker P lines lines') (hPQ : P ↔ Q) :
    Agrees marker Q lines lines' := by
  obtain ⟨rest, hcode, hline⟩ := h
  exact ⟨rest, hcode.congr hPQ, hline⟩

/-- A stroke looks no further back than the last line. -/
theorem write_append (unit : String) (before : List String) (line : String) (rest : List String)
    (stroke : Stroke) : ∃ rest', Stroke.write unit (line :: rest) stroke = line :: rest' ∧
      Stroke.write unit (before ++ line :: rest) stroke = before ++ line :: rest' := by
  have hlast : (before ++ line :: rest).getLast? = (line :: rest).getLast? := by
    rw [List.getLast?_append_of_ne_nil _ (List.cons_ne_nil line rest)]
  cases stroke with
  | line depth text => exact ⟨_, rfl, List.append_assoc _ _ _⟩
  | block text => exact ⟨_, rfl, List.append_assoc _ _ _⟩
  | gap =>
      rw [Stroke.write, Stroke.write, hlast]
      split
      · exact ⟨rest, rfl, rfl⟩
      · exact ⟨rest, rfl, rfl⟩
      · exact ⟨_, rfl, List.append_assoc _ _ _⟩

/-- A line that is written stays, whatever is written behind it. -/
theorem foldl_write_append (unit : String) (draft : Draft) (line : String)
    (rest : List String) :
    ∃ rest', ∀ before, draft.foldl (Stroke.write unit) (before ++ line :: rest) =
      before ++ line :: rest' := by
  induction draft generalizing rest with
  | nil => exact ⟨rest, fun _ => rfl⟩
  | cons stroke strokes ih =>
      obtain ⟨written, hwritten, -⟩ := write_append unit [] line rest stroke
      obtain ⟨rest', hrest'⟩ := ih written
      refine ⟨rest', fun before => ?_⟩
      obtain ⟨written', hwritten', heq⟩ := write_append unit before line rest stroke
      obtain rfl : written = written' := (List.cons.inj (hwritten.symm.trans hwritten')).2
      rw [List.foldl_cons, heq, hrest' before]

/-- Comments above a line. -/
def commented (marker : String) (depth : Nat) (comments : List String) (line : String) : Draft :=
  (comments.map fun text => .line depth (marker ++ text)) ++ [.line depth line]

/-- A commented line is written as its comments and then the line. -/
theorem foldl_write_commented (unit marker : String) (depth : Nat) (comments : List String)
    (line : String) (lines : List String) :
    (commented marker depth comments line).foldl (Stroke.write unit) lines =
      lines ++ (comments.map fun text => Stroke.textOf unit depth (marker ++ text)) ++
        [Stroke.textOf unit depth line] := by
  have hcomments := foldl_write_lines unit (comments.map fun text => (depth, marker ++ text)) lines
  simp only [List.map_map, Function.comp_def] at hcomments
  rw [commented, List.foldl_append, hcomments]
  rfl

namespace Annotates

/-- A draft has its own comments. -/
theorem refl (unit marker : String) (draft : Draft) :
    Annotates unit marker True draft draft := by
  rintro P _ _ ⟨rest, hcode, hline⟩
  obtain ⟨rest', hrest'⟩ := foldl_write_append unit draft _ rest
  rw [hrest', hrest']
  exact ⟨rest', hcode.congr (by simp), hline⟩

theorem congr (h : Annotates unit marker P draft draft') (hPQ : P ↔ Q) :
    Annotates unit marker Q draft draft' :=
  fun R lines lines' hagrees => (h R lines lines' hagrees).congr (and_congr_right fun _ => hPQ)

theorem append (h : Annotates unit marker P draft draft')
    (hmore : Annotates unit marker Q more more') :
    Annotates unit marker (P ∧ Q) (draft ++ more) (draft' ++ more') := by
  intro R lines lines' hagrees
  rw [List.foldl_append, List.foldl_append]
  exact (hmore _ _ _ (h R lines lines' hagrees)).congr and_assoc

/-- Strokes in front that both have. -/
theorem append_left (before : Draft) (h : Annotates unit marker Q draft draft') :
    Annotates unit marker Q (before ++ draft) (before ++ draft') :=
  ((refl unit marker before).append h).congr (by simp)

/-- Strokes behind that both have. -/
theorem append_right (h : Annotates unit marker Q draft draft') (after : Draft) :
    Annotates unit marker Q (draft ++ after) (draft' ++ after) :=
  (h.append (refl unit marker after)).congr (by simp)

theorem flatMap {α : Type} {xs : List α} {write write' : α → Draft} {P : α → Prop}
    (h : ∀ x ∈ xs, Annotates unit marker (P x) (write x) (write' x)) :
    Annotates unit marker (∀ x ∈ xs, P x) (xs.flatMap write) (xs.flatMap write') := by
  induction xs with
  | nil => exact (refl unit marker []).congr (by simp)
  | cons x rest ih =>
      rw [List.forall_mem_cons] at h
      rw [List.flatMap_cons, List.flatMap_cons, List.forall_mem_cons]
      exact h.1.append (ih h.2)

/-- Drafts that are joined by the same strokes. -/
theorem intercalate {α : Type} {between : Draft} {xs : List α} {write write' : α → Draft}
    {P : α → Prop} (h : ∀ x ∈ xs, Annotates unit marker (P x) (write x) (write' x)) :
    Annotates unit marker (∀ x ∈ xs, P x) (between.intercalate (xs.map write))
      (between.intercalate (xs.map write')) := by
  induction xs with
  | nil => exact (refl unit marker []).congr (by simp)
  | cons x rest ih =>
      rw [List.forall_mem_cons] at h
      cases rest with
      | nil =>
          have hone : Annotates unit marker (∀ y ∈ [x], P y) (write x) (write' x) :=
            h.1.congr (by simp)
          simpa [List.intercalate] using hone
      | cons next rest =>
          have hall : Annotates unit marker (∀ y ∈ x :: next :: rest, P y) _ _ :=
            (h.1.append ((ih h.2).append_left between)).congr (by simp)
          simpa [List.intercalate] using hall

/-- Comments above a line may be others. -/
theorem commented {depth : Nat} {comments comments' : List String} {line : String}
    (hmarker : Text.IsMarker marker) (hunit : Text.IsIndent unit)
    (h : GrowsUnless Q (comments.flatMap (Text.overrun marker))
      (comments'.flatMap (Text.overrun marker)))
    (hline : line ≠ "") :
    Annotates unit marker Q (Draft.commented marker depth comments line)
      (Draft.commented marker depth comments' line) := by
  rintro P _ _ ⟨rest, hbefore, hfirst⟩
  have hwritten : Stroke.textOf unit depth line ≠ "" := by
    have hempty : line.isEmpty = false := by simpa using hline
    rw [Stroke.textOf, hempty]
    intro heq
    exact hline (String.append_eq_empty_iff.1 heq).2
  have hcode (texts : List String) :
      (texts.map fun text => Stroke.textOf unit depth (marker ++ text)).flatMap
          (Text.codeLines marker) = texts.flatMap (Text.overrun marker) := by
    simp only [List.flatMap_map, Stroke.codeLines_textOf hmarker hunit]
  rw [foldl_write_commented, foldl_write_commented]
  refine ⟨[], ?_, hwritten⟩
  simp only [List.flatMap_append, hcode]
  exact ((hbefore.append (.refl _)).append h).congr (by simp)

/-- A comment above a line may be another. -/
theorem comment {depth : Nat} {text text' line : String} (hmarker : Text.IsMarker marker)
    (hunit : Text.IsIndent unit)
    (h : GrowsUnless Q (Text.overrun marker text) (Text.overrun marker text'))
    (hline : line ≠ "") :
    Annotates unit marker Q [.line depth (marker ++ text), .line depth line]
      [.line depth (marker ++ text'), .line depth line] := by
  have hcode : GrowsUnless Q ([text].flatMap (Text.overrun marker))
      ([text'].flatMap (Text.overrun marker)) := by
    simpa using h
  exact commented hmarker hunit hcode hline

end Annotates

/-- What ends with common lines, the first of them not empty, has the same end when it
is finished. -/
theorem Agrees.dropEmptyEnd (h : Agrees marker P lines lines') :
    Agrees marker P (dropEmptyEnd lines) (dropEmptyEnd lines') := by
  obtain @⟨_, _, line, rest, hcode, hline⟩ := h
  have hkept (before : List String) : Draft.dropEmptyEnd (before ++ line :: rest) =
      before ++ line :: Draft.dropEmptyEnd rest := by
    simpa using @dropEmptyEnd_append before line hline rest
  rw [hkept, hkept]
  exact ⟨_, hcode, hline⟩

/-- The code of lines that agree grows unless the condition holds. -/
theorem Agrees.growsUnless (h : Agrees marker P lines lines') :
    GrowsUnless P (lines.flatMap (Text.codeLines marker))
      (lines'.flatMap (Text.codeLines marker)) := by
  obtain ⟨rest, hcode, -⟩ := h
  rw [List.flatMap_append, List.flatMap_append]
  exact (hcode.append (.refl _)).congr (by simp)

theorem Agrees.ne_nil (h : Agrees marker P lines lines') : lines ≠ [] ∧ lines' ≠ [] := by
  obtain ⟨rest, -, -⟩ := h
  simp

/-- The code of a document is that of its lines. -/
theorem codeLines_render (hne : Draft.dropEmptyEnd (Draft.lines unit draft) ≠ []) :
    Text.codeLines marker (render unit draft) =
      (Draft.dropEmptyEnd (Draft.lines unit draft)).flatMap (Text.codeLines marker) ++
        [""].filter (!Text.isComment marker ·) := by
  rw [Text.codeLines, split_render unit draft hne, List.filter_append, List.filter_flatMap]
  rfl

/-- **Behind the same header, the finished texts have the same code just where `Q`.** -/
theorem Annotates.growsUnless_render {header : Draft} {line : String} {rest : List String}
    (h : Annotates unit marker Q draft draft')
    (hheader : Draft.lines unit header = line :: rest) (hline : line ≠ "") :
    GrowsUnless Q (Text.codeLines marker (render unit (header ++ draft)))
      (Text.codeLines marker (render unit (header ++ draft'))) := by
  have hstart : Agrees marker True (Draft.lines unit header) (Draft.lines unit header) := by
    rw [hheader]
    exact @Agrees.intro marker True [] [] line rest (.refl _) hline
  have hagrees := h True _ _ hstart
  rw [← lines_append, ← lines_append] at hagrees
  have hfinished := hagrees.dropEmptyEnd
  rw [codeLines_render hfinished.ne_nil.1, codeLines_render hfinished.ne_nil.2]
  exact (hfinished.growsUnless.append (.refl _)).congr (by simp)

end Draft

end RpcBindings
